import Ehsm.Crypto.Algorithm

/-!
# Which buffers may overlap

No layer compares the two buffers of a call, so a caller may pass spans that
share bytes.  The cipher loop runs upwards, one byte at a time.  It is therefore
right in place and where the output lies below the input, as `memmove` would be,
and wrong where the output starts inside the input: the loop then enciphers what
it has written itself, and as the cipher is its own inverse, plain bytes appear
in the output.

## Main results

* `Strategy.layout_safe_iff` — the layouts on which a call is right whatever the
  memory holds.
-/

namespace Ehsm

open Reactive

/-! ## The cipher loop -/

/-- The loop writes each input byte as it was on entry, unless the output starts
inside the input. -/
theorem xorLoop_of_safe {input output : Span} {n i : Nat}
    (h : ¬ (input.start < output.start ∧ output.start < input.start + n)) (hi : i < n)
    (mem : Memory) :
    xorLoop input output n mem (output.start + i) =
      mem (input.start + i) ^^^ kMockEncryptKey := by
  rw [xorLoop_eq_transform]
  exact transform_of_safe _ input.start output.start h hi mem

/-- The cipher is its own inverse on a byte. -/
theorem xor_mockKey_twice (byte : UInt8) : byte ^^^ kMockEncryptKey ^^^ kMockEncryptKey = byte := by
  rw [UInt8.xor_assoc, UInt8.xor_self, UInt8.xor_zero]

/-! ## Spans as sets of addresses -/

def Span.Contains (span : Span) (address : Nat) : Prop :=
  span.start ≤ address ∧ address < span.start + span.size

instance (span : Span) (address : Nat) : Decidable (span.Contains address) := by
  unfold Span.Contains
  infer_instance

/-- No byte belongs to both spans. -/
def Span.Disjoint (p q : Span) : Prop := ∀ address, p.Contains address → ¬ q.Contains address

theorem Span.disjoint_of_le {p q : Span} (h : p.start + p.size ≤ q.start) : p.Disjoint q := by
  intro address hp hq
  obtain ⟨-, hbelow⟩ := hp
  obtain ⟨habove, -⟩ := hq
  omega

theorem Span.Disjoint.symm {p q : Span} (h : p.Disjoint q) : q.Disjoint p :=
  fun address hq hp => h address hp hq

/-- With fitting buffers the loop writes to the output only. -/
theorem xorLoop_outside {input output : Span} (h : ¬ BadBuffers input output) {address : Nat}
    (hout : ¬ output.Contains address) (mem : Memory) :
    xorLoop input output input.size mem address = mem address := by
  rw [Span.Contains] at hout
  apply xorLoop_frame
  omega

/-- What it leaves in the output depends on the two buffers only. -/
theorem xorLoop_congr {input output : Span} {mem mem' : Memory}
    (h : ∀ address, input.Contains address ∨ output.Contains address →
      mem address = mem' address) {address : Nat} (hout : output.Contains address) :
    xorLoop input output input.size mem address = xorLoop input output input.size mem' address := by
  by_cases hwritten : address < output.start + input.size
  · obtain ⟨i, rfl⟩ := Nat.exists_eq_add_of_le hout.1
    rw [xorLoop_eq_transform, xorLoop_eq_transform]
    apply transform_congr
    · intro i hi
      exact h _ (.inl ⟨Nat.le_add_right _ _, by omega⟩)
    · omega
  · rw [xorLoop_frame input output input.size mem (by omega),
      xorLoop_frame input output input.size mem' (by omega)]
    exact h address (.inr hout)

/-! ## Layouts -/

/-- The output starts inside the input, behind its first byte. -/
abbrev ForwardOverlap (input output : Span) : Prop :=
  input.start < output.start ∧ output.start < input.start + input.size

/-- The output does not start inside a part of a span that is disjoint from it. -/
theorem Span.Disjoint.not_forwardOverlap {p q : Span} (h : p.Disjoint q) (hpos : 1 ≤ q.size)
    {n : Nat} (hn : n ≤ p.size) : ¬ ForwardOverlap ⟨p.start, n⟩ q := by
  rintro ⟨hlow, hhigh⟩
  have hbelow : q.start < p.start + n := hhigh
  exact h q.start ⟨Nat.le_of_lt hlow, by omega⟩ ⟨Nat.le_refl _, by omega⟩

/-- The bytes of the output are the input bytes as they were on entry, each
combined with the mock key. -/
def Ciphers (input output : Span) (mem mem' : Memory) : Prop :=
  ∀ i < input.size, mem' (output.start + i) = mem (input.start + i) ^^^ kMockEncryptKey

/-- Ciphering what was ciphered gives back the input, as long as nothing happened to
the ciphertext in between. -/
theorem Ciphers.undo {input output result : Span} {mem mem₁ mem₂ mem₃ : Memory}
    (hthere : Ciphers input output mem mem₁)
    (hkept : ∀ i < input.size, mem₂ (output.start + i) = mem₁ (output.start + i))
    (hback : Ciphers ⟨output.start, input.size⟩ result mem₂ mem₃) :
    ∀ i < input.size, mem₃ (result.start + i) = mem (input.start + i) := by
  intro i hi
  calc mem₃ (result.start + i)
      _ = mem₂ (output.start + i) ^^^ kMockEncryptKey := hback i hi
      _ = mem₁ (output.start + i) ^^^ kMockEncryptKey := by rw [hkept i hi]
      _ = mem (input.start + i) ^^^ kMockEncryptKey ^^^ kMockEncryptKey := by rw [hthere i hi]
      _ = mem (input.start + i) := xor_mockKey_twice _

/-- On every memory the call succeeds, ciphers its input, and leaves every other
byte alone. -/
def RightOnAll (call : Span → Span → Memory → Status × Memory) (input output : Span) : Prop :=
  ∀ mem, (call input output mem).1 = .ok ∧ Ciphers input output mem (call input output mem).2 ∧
    ∀ address, (address < output.start ∨ output.start + input.size ≤ address) →
      (call input output mem).2 address = mem address

/-- With fitting buffers only the bytes written can be wrong. -/
theorem rightOnAll_iff {input output : Span} (h : ¬ BadBuffers input output) :
    RightOnAll xorBuffer input output ↔
      ∀ mem, Ciphers input output mem (xorBuffer input output mem).2 := by
  constructor
  · intro hright mem
    exact (hright mem).2.1
  · intro hciphers mem
    have hgood := xorBuffer_good h mem
    refine ⟨congrArg Prod.fst hgood, hciphers mem, ?_⟩
    intro address haddress
    rw [hgood]
    exact xorLoop_frame input output input.size mem haddress

/-- They are right on every memory exactly without a forward overlap: zero bytes
tell the cipher applied twice from the cipher applied once. -/
theorem ciphers_iff {input output : Span} (h : ¬ BadBuffers input output) :
    (∀ mem, Ciphers input output mem (xorBuffer input output mem).2) ↔
      ¬ ForwardOverlap input output := by
  have htwice : ∃ x y : UInt8,
      x ^^^ kMockEncryptKey ^^^ kMockEncryptKey ≠ y ^^^ kMockEncryptKey := ⟨0, 0, by decide⟩
  have hlayout := transform_correct_iff (· ^^^ kMockEncryptKey) input.start output.start htwice
    input.size
  rw [← hlayout]
  apply forall_congr'
  intro mem
  rw [Ciphers, xorBuffer_good h, xorLoop_eq_transform]

namespace Strategy

/--
**Which layouts are safe.**  For buffers that fit, with either strategy and in
either direction, a call is right on every memory if and only if the output does
not start inside the input, behind its first byte.  Where it does, there is a
memory on which a byte of the output comes out wrong.
-/
theorem layout_safe_iff (strategy : Strategy) (input output : Span) (hpos : 1 ≤ input.size)
    (hfits : input.size ≤ output.size) :
    (RightOnAll strategy.algorithm.encrypt input output ↔ ¬ ForwardOverlap input output) ∧
      (RightOnAll strategy.algorithm.decrypt input output ↔ ¬ ForwardOverlap input output) ∧
      (ForwardOverlap input output →
        (∃ mem, ¬ Ciphers input output mem (strategy.algorithm.encrypt input output mem).2) ∧
          ∃ mem, ¬ Ciphers input output mem (strategy.algorithm.decrypt input output mem).2) := by
  have hgood : ¬ BadBuffers input output := by
    rw [BadBuffers, Span.isEmpty_iff]
    omega
  rw [strategy.encrypt_eq, strategy.decrypt_eq]
  have hsafe : RightOnAll xorBuffer input output ↔ ¬ ForwardOverlap input output := by
    rw [rightOnAll_iff hgood, ciphers_iff hgood]
  have hspoilt : ForwardOverlap input output →
      ∃ mem, ¬ Ciphers input output mem (xorBuffer input output mem).2 := by
    intro hoverlap
    rw [← not_forall, ciphers_iff hgood]
    exact not_not_intro hoverlap
  exact ⟨hsafe, hsafe, fun hoverlap => ⟨hspoilt hoverlap, hspoilt hoverlap⟩⟩

/-- Four bytes enciphered in place. -/
theorem layout_safe_in_place :
    RightOnAll Strategy.aes128.algorithm.encrypt ⟨0, 4⟩ ⟨0, 4⟩ :=
  (layout_safe_iff .aes128 ⟨0, 4⟩ ⟨0, 4⟩ (by decide) (by decide)).1.mpr (by decide)

end Strategy

end Ehsm

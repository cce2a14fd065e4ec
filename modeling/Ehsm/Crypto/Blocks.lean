import Mathlib.Algebra.Ring.Nat
import Ehsm.Crypto.Algorithm

/-!
# Block functions and pieces of data

Beside the functions on spans the strategies have private functions on one block of
16 bytes, with a key as a parameter that they ignore.  Nothing calls them, and the
functions on spans have a loop of their own.  The two agree: enciphering a whole
number of blocks is enciphering block after block, for every layout of the buffers,
overlapping ones included, and whatever is passed for the key.

The same holds for pieces of any sizes, since the loop keeps no state between two
bytes; a mode of operation with chaining would not allow it.

## Main results

* `xorLoop_pieces` — a loop over all pieces is a loop over one after the other.
* `Strategy.span_eq_blocks` — the functions on spans run the block functions.
-/

namespace Ehsm

open Reactive

/-! ## Block functions -/

namespace Aes128Algorithm

def encryptBlock (input output _key : Nat) (mem : Memory) : Memory :=
  xorLoop ⟨input, 16⟩ ⟨output, 16⟩ 16 mem

def decryptBlock (input output _key : Nat) (mem : Memory) : Memory :=
  xorLoop ⟨input, 16⟩ ⟨output, 16⟩ 16 mem

end Aes128Algorithm

namespace Aes256Algorithm

def encryptBlock (input output _key : Nat) (mem : Memory) : Memory :=
  xorLoop ⟨input, 16⟩ ⟨output, 16⟩ 16 mem

def decryptBlock (input output _key : Nat) (mem : Memory) : Memory :=
  xorLoop ⟨input, 16⟩ ⟨output, 16⟩ 16 mem

end Aes256Algorithm

namespace Strategy

def encryptBlock : Strategy → Nat → Nat → Nat → Memory → Memory
  | .aes128 => Aes128Algorithm.encryptBlock
  | .aes256 => Aes256Algorithm.encryptBlock

def decryptBlock : Strategy → Nat → Nat → Nat → Memory → Memory
  | .aes128 => Aes128Algorithm.decryptBlock
  | .aes256 => Aes256Algorithm.decryptBlock

end Strategy

/-! ## Pieces -/

/-- The cipher loop over pieces that follow each other in both buffers. -/
def xorPieces (input output : Nat) : List Nat → Memory → Memory
  | [], mem => mem
  | n :: sizes, mem =>
      xorPieces (input + n) (output + n) sizes (xorLoop ⟨input, n⟩ ⟨output, n⟩ n mem)

/-- The loop runs over the pieces as over the whole, also where they overlap. -/
theorem xorLoop_pieces (input output : Span) (sizes : List Nat) (mem : Memory) :
    xorPieces input.start output.start sizes mem = xorLoop input output sizes.sum mem := by
  rw [xorLoop_eq_transform]
  generalize input.start = source
  generalize output.start = target
  induction sizes generalizing source target mem with
  | nil => rfl
  | cons n sizes ih =>
      rw [xorPieces, ih, List.sum_cons, transform_add, xorLoop_eq_transform]

/-! ## Blocks -/

/-- Block after block, with whatever stands for the key. -/
def blockLoop (block : Nat → Nat → Nat → Memory → Memory) (key input output : Nat) :
    Nat → Memory → Memory
  | 0, mem => mem
  | n + 1, mem =>
      block (input + 16 * n) (output + 16 * n) key (blockLoop block key input output n mem)

/-- A function on spans runs the block function on each block. -/
def RunsBlocks (call : Span → Span → Memory → Status × Memory)
    (block : Nat → Nat → Nat → Memory → Memory) : Prop :=
  ∀ (key n input : Nat) (output : Span) (mem : Memory), 1 ≤ n → 16 * n ≤ output.size →
    call ⟨input, 16 * n⟩ output mem = (.ok, blockLoop block key input output.start n mem)

theorem runsBlocks_xorBuffer {block : Nat → Nat → Nat → Memory → Memory}
    (hblock : ∀ input output key mem,
      block input output key mem = xorLoop ⟨input, 16⟩ ⟨output, 16⟩ 16 mem) :
    RunsBlocks xorBuffer block := by
  intro key n input output mem hn hfits
  have hgood : ¬ BadBuffers ⟨input, 16 * n⟩ output := by
    simp only [BadBuffers, Span.isEmpty_iff]
    omega
  rw [xorBuffer_good hgood, xorLoop_eq_transform]
  have hloop : ∀ m, blockLoop block key input output.start m mem =
      transform (· ^^^ kMockEncryptKey) input output.start (16 * m) mem := by
    intro m
    induction m with
    | zero => rfl
    | succ m ih =>
        rw [blockLoop, hblock, ih, xorLoop_eq_transform, Nat.mul_succ, transform_add]
  rw [hloop]

namespace Strategy

/--
**The functions on spans agree with the block functions.**  With either strategy and
in either direction, enciphering `n` blocks into a buffer that holds them is
enciphering block after block, for every layout of the two buffers and every key.
-/
theorem span_eq_blocks (strategy : Strategy) :
    RunsBlocks strategy.algorithm.encrypt strategy.encryptBlock ∧
      RunsBlocks strategy.algorithm.decrypt strategy.decryptBlock := by
  rw [strategy.encrypt_eq, strategy.decrypt_eq]
  constructor
  · apply runsBlocks_xorBuffer
    cases strategy <;> exact fun _ _ _ _ => rfl
  · apply runsBlocks_xorBuffer
    cases strategy <;> exact fun _ _ _ _ => rfl

end Strategy

end Ehsm

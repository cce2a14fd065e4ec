import Ehsm.Types

/-!
# Cipher strategies

`ICryptoAlgorithm` and its two implementations.  Both are mocks that combine
every byte with one constant; they differ in the type, key size and block size
they announce.  Buffers are spans of one caller memory, so that input and output
may overlap and the loop is the sequential one of the source.
-/

namespace Ehsm

open Reactive

/-! ## Caller memory -/

/-- The bytes the caller owns, by address. -/
abbrev Memory := Nat → UInt8

/-- Overwrite one byte. -/
def Memory.write (mem : Memory) (address : Nat) (byte : UInt8) : Memory :=
  Function.update mem address byte

/-- A contiguous view into the caller's memory. -/
structure Span where
  start : Nat
  size : Nat
  deriving DecidableEq, Repr

def Span.isEmpty (span : Span) : Bool := span.size == 0

theorem Span.isEmpty_iff {span : Span} : span.isEmpty = true ↔ span.size = 0 := by
  simp [Span.isEmpty]

/-- The test every layer makes on a pair of buffers before it transforms data. -/
abbrev BadBuffers (input output : Span) : Prop :=
  input.isEmpty = true ∨ output.size < input.size

/-! ## The strategy interface -/

/-- A cipher strategy: what it announces, and how it transforms a span. -/
structure ICryptoAlgorithm where
  getAlgorithmType : Algorithm
  getKeySize : Nat
  getBlockSize : Nat
  encrypt : Span → Span → Memory → Status × Memory
  decrypt : Span → Span → Memory → Status × Memory

/-! ## The mock cipher -/

/-- Mock encryption key. -/
def kMockEncryptKey : UInt8 := 0x5A

/-- The first `n` rounds of the cipher loop: round `i` reads input byte `i` and
writes output byte `i`. -/
def xorLoop (input output : Span) : Nat → Memory → Memory
  | 0, mem => mem
  | n + 1, mem =>
      let mem := xorLoop input output n mem
      mem.write (output.start + n) (mem (input.start + n) ^^^ kMockEncryptKey)

/-- The body shared by all four cipher functions. -/
def xorBuffer (input output : Span) (mem : Memory) : Status × Memory :=
  if BadBuffers input output then (.errInsufficientBuffer, mem)
  else (.ok, xorLoop input output input.size mem)

/-- The cipher loop transforms the input range into the output range. -/
theorem xorLoop_eq_transform (input output : Span) (n : Nat) (mem : Memory) :
    xorLoop input output n mem =
      transform (· ^^^ kMockEncryptKey) input.start output.start n mem := by
  induction n with
  | zero => rfl
  | succ n ih =>
      rw [xorLoop, transform, ih]
      rfl

/-- The loop writes only the output bytes it has passed. -/
theorem xorLoop_frame (input output : Span) (n : Nat) (mem : Memory) {address : Nat}
    (h : address < output.start ∨ output.start + n ≤ address) :
    xorLoop input output n mem address = mem address := by
  rw [xorLoop_eq_transform]
  exact transform_frame _ input.start output.start n mem h

theorem xorBuffer_good {input output : Span} (h : ¬ BadBuffers input output)
    (mem : Memory) :
    xorBuffer input output mem = (.ok, xorLoop input output input.size mem) :=
  if_neg h

/-! ## AES-128 -/

namespace Aes128Algorithm

def getAlgorithmType : Algorithm := .aes128

def getKeySize : Nat := 16

def getBlockSize : Nat := 16

def encrypt (input output : Span) (mem : Memory) : Status × Memory :=
  xorBuffer input output mem

def decrypt (input output : Span) (mem : Memory) : Status × Memory :=
  xorBuffer input output mem

end Aes128Algorithm

def Aes128Algorithm : ICryptoAlgorithm where
  getAlgorithmType := Aes128Algorithm.getAlgorithmType
  getKeySize := Aes128Algorithm.getKeySize
  getBlockSize := Aes128Algorithm.getBlockSize
  encrypt := Aes128Algorithm.encrypt
  decrypt := Aes128Algorithm.decrypt

/-! ## AES-256 -/

namespace Aes256Algorithm

def getAlgorithmType : Algorithm := .aes256

def getKeySize : Nat := 32

def getBlockSize : Nat := 16

def encrypt (input output : Span) (mem : Memory) : Status × Memory :=
  xorBuffer input output mem

def decrypt (input output : Span) (mem : Memory) : Status × Memory :=
  xorBuffer input output mem

end Aes256Algorithm

def Aes256Algorithm : ICryptoAlgorithm where
  getAlgorithmType := Aes256Algorithm.getAlgorithmType
  getKeySize := Aes256Algorithm.getKeySize
  getBlockSize := Aes256Algorithm.getBlockSize
  encrypt := Aes256Algorithm.encrypt
  decrypt := Aes256Algorithm.decrypt

/-- The strategies the firmware ships. -/
inductive Strategy where
  | aes128
  | aes256
  deriving DecidableEq, Repr

def Strategy.algorithm : Strategy → ICryptoAlgorithm
  | .aes128 => Aes128Algorithm
  | .aes256 => Aes256Algorithm

/-- Whatever the strategy and the direction, the transformation is the mock
cipher; in particular no key takes part in it. -/
theorem Strategy.encrypt_eq (strategy : Strategy) :
    strategy.algorithm.encrypt = xorBuffer := by
  cases strategy <;> rfl

theorem Strategy.decrypt_eq (strategy : Strategy) :
    strategy.algorithm.decrypt = xorBuffer := by
  cases strategy <;> rfl

end Ehsm

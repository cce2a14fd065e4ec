import Mathlib.Data.List.FinRange
import Mathlib.Logic.Function.Basic
import Mathlib.Tactic.TypeStar

/-!
# Loops over arrays

Three shapes of loop over an array.

* `updateFirst` — a loop that looks for the first entry passing a test, rewrites
  it and stops; `none` says the loop ran to its end.
* `sweep` — a loop that rewrites every entry of an array in index order.
* `transform` — a loop that reads one range and writes another, which may overlap.

The first is described by where it stopped (`updateFirst_eq_some_iff`), the
second by what it leaves at each index (`sweep_eq`), the third by the layouts in
which every read still sees what was there on entry (`transform_correct_iff`).
-/

namespace Reactive

/-! ## Search and stop -/

section Search

variable {α : Type*}

/-- Rewrite the first entry that passes `p` by `f`, and stop there. -/
def updateFirst (p : α → Bool) (f : α → α) : List α → Option (List α)
  | [] => none
  | x :: xs => if p x then some (f x :: xs) else (updateFirst p f xs).map (x :: ·)

/-- The loop runs to its end exactly when no entry passes. -/
theorem updateFirst_eq_none_iff {p : α → Bool} {f : α → α} {xs : List α} :
    updateFirst p f xs = none ↔ ∀ x ∈ xs, p x = false := by
  induction xs with
  | nil => simp [updateFirst]
  | cons x xs ih =>
      by_cases hx : p x = true
      · simp [updateFirst, hx]
      · simp [updateFirst, hx, ih]

/-- The loop stops at the first entry that passes, and rewrites that entry. -/
theorem updateFirst_eq_some_iff {p : α → Bool} {f : α → α} {xs ys : List α} :
    updateFirst p f xs = some ys ↔
      ∃ pre x post, xs = pre ++ x :: post ∧ (∀ y ∈ pre, p y = false) ∧ p x = true ∧
        ys = pre ++ f x :: post := by
  induction xs generalizing ys with
  | nil => simp [updateFirst]
  | cons a xs ih =>
      by_cases ha : p a = true
      · simp only [updateFirst, ha, if_true, Option.some.injEq]
        constructor
        · rintro rfl
          exact ⟨[], a, xs, rfl, by simp, ha, rfl⟩
        · rintro ⟨pre, x, post, hxs, hpre, -, rfl⟩
          cases pre with
          | nil =>
              obtain ⟨rfl, rfl⟩ := List.cons.inj hxs
              rfl
          | cons b pre =>
              obtain ⟨rfl, -⟩ := List.cons.inj hxs
              have hb := hpre a (by simp)
              rw [ha] at hb
              contradiction
      · simp only [updateFirst, ha, Bool.false_eq_true, if_false, Option.map_eq_some_iff]
        constructor
        · rintro ⟨zs, hzs, rfl⟩
          obtain ⟨pre, x, post, rfl, hpre, hx, rfl⟩ := ih.mp hzs
          refine ⟨a :: pre, x, post, rfl, ?_, hx, rfl⟩
          intro y hy
          rcases List.mem_cons.mp hy with rfl | hy
          · simpa using ha
          · exact hpre y hy
        · rintro ⟨pre, x, post, hxs, hpre, hx, rfl⟩
          cases pre with
          | nil =>
              obtain ⟨rfl, -⟩ := List.cons.inj hxs
              exact absurd hx ha
          | cons b pre =>
              obtain ⟨rfl, rfl⟩ := List.cons.inj hxs
              exact ⟨pre ++ f x :: post,
                ih.mpr ⟨pre, x, post, rfl, fun y hy => hpre y (by simp [hy]), hx, rfl⟩, rfl⟩

/-- The rewritten table has as many entries as before. -/
theorem length_updateFirst {p : α → Bool} {f : α → α} {xs ys : List α}
    (h : updateFirst p f xs = some ys) : ys.length = xs.length := by
  obtain ⟨pre, x, post, rfl, -, -, rfl⟩ := updateFirst_eq_some_iff.mp h
  simp

/-- Two searches commute if no entry suits both and neither makes an entry suitable
for the other. -/
theorem updateFirst_comm {p q : α → Bool} {f g : α → α} (hpq : ∀ x, p x = true → q x = false)
    (hqf : ∀ x, p x = true → q (f x) = false) (hpg : ∀ x, q x = true → p (g x) = false)
    (xs : List α) :
    (updateFirst q g ((updateFirst p f xs).getD xs)).getD ((updateFirst p f xs).getD xs) =
      (updateFirst p f ((updateFirst q g xs).getD xs)).getD ((updateFirst q g xs).getD xs) := by
  have hcons : ∀ (r : α → Bool) (h : α → α) (x : α) (xs : List α),
      (updateFirst r h (x :: xs)).getD (x :: xs) =
        if r x then h x :: xs else x :: (updateFirst r h xs).getD xs := by
    intro r h x xs
    rw [updateFirst]
    split
    · rfl
    · cases updateFirst r h xs <;> rfl
  induction xs with
  | nil => rfl
  | cons x xs ih =>
      rw [hcons p, hcons q]
      by_cases hp : p x = true
      · have hq : ¬ q x = true := by simp [hpq x hp]
        rw [if_pos hp, if_neg hq, hcons, hcons, if_pos hp, if_neg (by simp [hqf x hp])]
      · rw [if_neg hp]
        by_cases hq : q x = true
        · rw [if_pos hq, hcons, hcons, if_pos hq, if_neg (by simp [hpg x hq])]
        · rw [if_neg hq, hcons, hcons, if_neg hp, if_neg hq, ih]

end Search

/-! ## Rewriting every entry -/

section Sweep

variable {α : Type*} {n : Nat}

/-- Rewrite entry `i` by `f i`, for `i = 0, …, n − 1` in this order. -/
def sweep (f : Fin n → α → α) (xs : Fin n → α) : Fin n → α :=
  (List.finRange n).foldl (fun ys i => Function.update ys i (f i (ys i))) xs

/-- After a loop over the distinct indices `is`, an entry is rewritten exactly
when its index is among them. -/
theorem foldl_update_apply (f : Fin n → α → α) (is : List (Fin n)) (hnodup : is.Nodup)
    (xs : Fin n → α) (j : Fin n) :
    is.foldl (fun ys i => Function.update ys i (f i (ys i))) xs j =
      if j ∈ is then f j (xs j) else xs j := by
  induction is generalizing xs with
  | nil => simp
  | cons i is ih =>
      obtain ⟨hi, hrest⟩ := List.nodup_cons.mp hnodup
      rw [List.foldl_cons, ih hrest]
      by_cases hji : j = i
      · subst hji
        simp [hi]
      · simp [hji]

/-- The loop rewrites every entry once. -/
theorem sweep_eq (f : Fin n → α → α) (xs : Fin n → α) :
    sweep f xs = fun i => f i (xs i) := by
  funext i
  rw [sweep, foldl_update_apply f _ (List.nodup_finRange n)]
  simp

end Sweep

/-! ## Transforming a range -/

section Transform

variable {α : Type*} (f : α → α) (source target : Nat)

/-- The first `n` rounds of a loop that in round `i` reads cell `source + i` and
writes its image to cell `target + i`. -/
def transform : Nat → (Nat → α) → Nat → α
  | 0, cells => cells
  | n + 1, cells =>
      let cells := transform n cells
      Function.update cells (target + n) (f (cells (source + n)))

/-- The loop writes only the cells it has passed. -/
theorem transform_frame (n : Nat) (cells : Nat → α) {address : Nat}
    (h : address < target ∨ target + n ≤ address) :
    transform f source target n cells address = cells address := by
  induction n with
  | zero => rfl
  | succ n ih =>
      have hne : address ≠ target + n := by omega
      rw [transform, Function.update_of_ne hne]
      exact ih (by omega)

/-- Each cell is written once, from what its round found. -/
theorem transform_apply {i n : Nat} (h : i < n) (cells : Nat → α) :
    transform f source target n cells (target + i) =
      f (transform f source target i cells (source + i)) := by
  induction n with
  | zero => omega
  | succ n ih =>
      rw [transform]
      by_cases hi : i = n
      · subst hi
        rw [Function.update_self]
      · have hne : target + i ≠ target + n := by omega
        rw [Function.update_of_ne hne]
        exact ih (by omega)

/-- The loop can be cut into two, the second one over the rest of both ranges. -/
theorem transform_add (m n : Nat) (cells : Nat → α) :
    transform f source target (m + n) cells =
      transform f (source + m) (target + m) n (transform f source target m cells) := by
  induction n with
  | zero => rfl
  | succ n ih => rw [← Nat.add_assoc, transform, transform, ih, Nat.add_assoc, Nat.add_assoc]

/-- What the loop writes depends on the source alone, also where it has been
overwritten. -/
theorem transform_congr {n : Nat} {cells cells' : Nat → α}
    (h : ∀ i < n, cells (source + i) = cells' (source + i)) {i : Nat} (hi : i < n) :
    transform f source target n cells (target + i) =
      transform f source target n cells' (target + i) := by
  have hread : ∀ i < n, transform f source target i cells (source + i) =
      transform f source target i cells' (source + i) := by
    intro i
    induction i using Nat.strong_induction_on with
    | h i ih =>
        intro hi
        by_cases hwritten : target ≤ source + i ∧ source + i < target + i
        · -- an earlier round wrote the cell, from what it read itself
          obtain ⟨hlow, hhigh⟩ := hwritten
          obtain ⟨j, hj⟩ := Nat.exists_eq_add_of_le hlow
          have hji : j < i := by omega
          rw [hj, transform_apply f source target hji, transform_apply f source target hji]
          exact congrArg f (ih j hji (by omega))
        · rw [transform_frame f source target i cells (by omega),
            transform_frame f source target i cells' (by omega)]
          exact h i hi
  rw [transform_apply f source target hi, transform_apply f source target hi, hread i hi]

/-- Unless the target starts inside the source, behind its first cell, no round
reads a cell that an earlier one wrote. -/
theorem transform_of_safe {i n : Nat} (h : ¬ (source < target ∧ target < source + n))
    (hi : i < n) (cells : Nat → α) :
    transform f source target n cells (target + i) = f (cells (source + i)) := by
  rw [transform_apply f source target hi]
  rw [transform_frame f source target i cells (by omega)]

/-- Otherwise the round that reads the first cell of the target reads an image. -/
theorem transform_of_overlap {n : Nat} (hlow : source < target) (hhigh : target < source + n)
    (cells : Nat → α) :
    transform f source target n cells (target + (target - source)) = f (f (cells source)) := by
  have hread : source + (target - source) = target + 0 := by omega
  rw [transform_apply f source target (by omega), hread]
  rw [transform_apply f source target (by omega)]
  rfl

/-- **Safe layouts.**  Where applying the function twice can be told from applying
it once, the loop is right on every content exactly when the target does not start
inside the source, behind its first cell. -/
theorem transform_correct_iff (hf : ∃ x y, f (f x) ≠ f y) (n : Nat) :
    (∀ cells : Nat → α, ∀ i < n,
        transform f source target n cells (target + i) = f (cells (source + i))) ↔
      ¬ (source < target ∧ target < source + n) := by
  constructor
  · intro hall hoverlap
    obtain ⟨hlow, hhigh⟩ := hoverlap
    obtain ⟨x, y, hne⟩ := hf
    -- the first cell of the source is `x`, the first one of the target is `y`
    have hcontent := hall (Function.update (fun _ => x) target y) (target - source) (by omega)
    have hread : source + (target - source) = target := by omega
    rw [transform_of_overlap f source target hlow hhigh, hread, Function.update_self,
      Function.update_of_ne (by omega)] at hcontent
    exact hne hcontent
  · intro hsafe cells i hi
    exact transform_of_safe f source target hsafe hi cells

end Transform

end Reactive

import Ehsm.Reactive.Independence

/-!
# Clients that share a machine

Several clients call one machine in turns.  A *schedule* is a run in which each
call carries the client that makes it.  If, wherever an invariant holds, calls of
different clients commute, then the schedule is invisible: each client gets the
answers it would get alone, and the state at the end depends only on what each
client called, not on the order in which the clients took their turns.

That calls commute is often more than a matter of disjoint cells.  Two calls may
both change a cell, by updates that commute, as two increments do.  `Updates` says
how a call changes each cell; the update may depend on the state through what the
call looks at.

## Main results

* `ActsOn.comm` — updates of an array that keep to regions of their own commute.
* `Updates.commuteAt` — calls with commuting updates, each unnoticed by the other.
* `Separates.repliesTo_eq` — a client is answered as if it were alone.
* `Separates.run_eq_of_callsOf` — the order of turns is irrelevant.
* `Separates.view_eq` — what the others leave alone of the state is as if the client
  were alone.
-/

namespace Reactive

/-! ## Updates of part of an array -/

section Regions

variable {κ α : Type*}

/-- The update changes cells of `writes` only, and what it leaves there depends on
cells of `reads` only. -/
structure ActsOn (reads writes : Set κ) (f : (κ → α) → κ → α) : Prop where
  frame : ∀ cells, ∀ k ∉ writes, f cells k = cells k
  effect : ∀ cells cells', (∀ k ∈ reads, cells k = cells' k) → ∀ k ∈ writes,
    f cells k = f cells' k

theorem actsOn_id : ActsOn (∅ : Set κ) ∅ (fun cells : κ → α => cells) :=
  ⟨fun _ _ _ => rfl, fun _ _ _ k hk => absurd hk (Set.notMem_empty k)⟩

theorem actsOn_update [DecidableEq κ] (k : κ) (a : α) :
    ActsOn ∅ {k} fun cells : κ → α => Function.update cells k a := by
  constructor
  · intro cells j hj
    exact Function.update_of_ne hj a cells
  · intro cells cells' _ j hj
    obtain rfl := hj
    rw [Function.update_self, Function.update_self]

/-- Updates that write different cells, neither of which reads what the other
writes, commute. -/
theorem ActsOn.comm {readsF writesF readsG writesG : Set κ} {f g : (κ → α) → κ → α}
    (hf : ActsOn readsF writesF f) (hg : ActsOn readsG writesG g)
    (hwrites : ∀ k ∈ writesF, k ∉ writesG) (hreadsF : ∀ k ∈ readsF, k ∉ writesG)
    (hreadsG : ∀ k ∈ readsG, k ∉ writesF) (cells : κ → α) : g (f cells) = f (g cells) := by
  funext k
  by_cases hkF : k ∈ writesF
  · have hsame : f (g cells) k = f cells k :=
      hf.effect _ _ (fun j hj => hg.frame cells j (hreadsF j hj)) k hkF
    rw [hg.frame _ k (hwrites k hkF), hsame]
  · rw [hf.frame _ k hkF]
    by_cases hkG : k ∈ writesG
    · exact hg.effect _ _ (fun j hj => hf.frame cells j (hreadsG j hj)) k hkG
    · rw [hg.frame _ k hkG, hg.frame _ k hkG, hf.frame _ k hkF]

end Regions

namespace Machine

variable {σ ι ο κ ν : Type*}

/-! ## Commuting updates -/

section Updates

variable {α : κ → Type*}

/-- Under the invariant `Q`, the call changes each cell by an update that depends on
the state, as its reply does, only through what the call looks at. -/
structure Updates (M : Machine σ ι ο) (Q : σ → Prop) (cell : (k : κ) → σ → α k) (i : ι)
    (update : σ → (k : κ) → α k → α k) (looksSame : σ → σ → Prop) : Prop where
  effect : ∀ s, Q s → ∀ k, cell k (M.next i s) = update s k (cell k s)
  reply : ∀ s t, Q s → Q t → looksSame s t → M.reply i s = M.reply i t
  same : ∀ s t, looksSame s t → update s = update t

/-- Calls that do not notice each other commute if their updates do. -/
theorem Updates.commuteAt {M : Machine σ ι ο} {Q : σ → Prop} {cell : (k : κ) → σ → α k}
    {a b : ι} {updateA updateB : σ → (k : κ) → α k → α k} {sameA sameB : σ → σ → Prop}
    (ha : Updates M Q cell a updateA sameA) (hb : Updates M Q cell b updateB sameB)
    (hcells : ∀ s t, (∀ k, cell k s = cell k t) → s = t) {s : σ} (hs : Q s)
    (hnextA : Q (M.next a s)) (hnextB : Q (M.next b s))
    (hsameA : sameA (M.next b s) s) (hsameB : sameB (M.next a s) s)
    (hcomm : ∀ k, updateB s k (updateA s k (cell k s)) = updateA s k (updateB s k (cell k s))) :
    M.CommuteAt a b s := by
  refine ⟨ha.reply _ _ hnextB hs hsameA, hb.reply _ _ hnextA hs hsameB, hcells _ _ ?_⟩
  intro k
  calc cell k (M.next b (M.next a s))
      _ = updateB s k (cell k (M.next a s)) := by
        rw [hb.effect _ hnextA, hb.same _ _ hsameB]
      _ = updateB s k (updateA s k (cell k s)) := by rw [ha.effect s hs]
      _ = updateA s k (updateB s k (cell k s)) := hcomm k
      _ = updateA s k (cell k (M.next b s)) := by rw [hb.effect s hs]
      _ = cell k (M.next a (M.next b s)) := by
        rw [ha.effect _ hnextB, ha.same _ _ hsameA]

end Updates

/-! ## Schedules -/

section Schedule

variable [DecidableEq κ]

/-- The calls that one client makes. -/
def callsOf (c : κ) : List (κ × ι) → List ι
  | [] => []
  | (d, i) :: rest => if d = c then i :: callsOf c rest else callsOf c rest

/-- The answers that one client gets. -/
def repliesTo (M : Machine σ ι ο) (c : κ) : List (κ × ι) → σ → List ο
  | [], _ => []
  | (d, i) :: rest, s =>
      if d = c then M.reply i s :: repliesTo M c rest (M.next i s)
      else repliesTo M c rest (M.next i s)

theorem callsOf_append (c : κ) (w w' : List (κ × ι)) :
    callsOf c (w ++ w') = callsOf c w ++ callsOf c w' := by
  induction w with
  | nil => rfl
  | cons x w ih =>
      simp only [List.cons_append, callsOf, ih]
      split <;> rfl

theorem mem_callsOf {c : κ} {i : ι} {w : List (κ × ι)} : i ∈ callsOf c w ↔ (c, i) ∈ w := by
  induction w with
  | nil => simp [callsOf]
  | cons x w ih =>
      obtain ⟨d, j⟩ := x
      by_cases hd : d = c
      · subst hd
        simp [callsOf, ih]
      · have hne : (c, i) ≠ (d, j) := fun h => hd (Prod.mk.inj h).1.symm
        simp [callsOf, ih, hd, hne]

/-- The first call of a client stands behind calls of others. -/
theorem exists_of_callsOf_cons {c : κ} {i : ι} {is : List ι} {w : List (κ × ι)}
    (h : callsOf c w = i :: is) :
    ∃ before after, w = before ++ (c, i) :: after ∧ ∀ x ∈ before, x.1 ≠ c := by
  induction w with
  | nil => cases h
  | cons x w ih =>
      obtain ⟨d, j⟩ := x
      by_cases hd : d = c
      · subst hd
        rw [callsOf, if_pos rfl] at h
        obtain ⟨rfl, -⟩ := List.cons.inj h
        exact ⟨[], w, rfl, by simp⟩
      · rw [callsOf, if_neg hd] at h
        obtain ⟨before, after, rfl, hbefore⟩ := ih h
        refine ⟨(d, j) :: before, after, rfl, ?_⟩
        intro x hx
        rcases List.mem_cons.mp hx with rfl | hx
        · exact hd
        · exact hbefore x hx

/-- A client has no calls among those of others. -/
theorem callsOf_eq_nil {c : κ} {w : List (κ × ι)} (h : ∀ x ∈ w, x.1 ≠ c) : callsOf c w = [] := by
  rw [List.eq_nil_iff_forall_not_mem]
  intro i hi
  exact h (c, i) (mem_callsOf.mp hi) rfl

theorem callsOf_map (c d : κ) (is : List ι) :
    callsOf d (is.map fun i => (c, i)) = if c = d then is else [] := by
  induction is with
  | nil => simp [callsOf]
  | cons i is ih =>
      rw [List.map_cons, callsOf, ih]
      by_cases hcd : c = d
      · simp only [if_pos hcd]
      · simp only [if_neg hcd]

theorem callsOf_filter (c d : κ) (w : List (κ × ι)) :
    callsOf d (w.filter fun x => x.1 ≠ c) = if c = d then [] else callsOf d w := by
  by_cases hcd : c = d
  · subst hcd
    rw [if_pos rfl]
    apply callsOf_eq_nil
    intro x hx
    simpa using (List.mem_filter.mp hx).2
  · rw [if_neg hcd]
    induction w with
    | nil => rfl
    | cons x w ih =>
        obtain ⟨e, i⟩ := x
        by_cases hec : e = c
        · have hed : ¬ e = d := hec ▸ hcd
          rw [List.filter_cons_of_neg (by simp [hec]), callsOf, if_neg hed, ih]
        · rw [List.filter_cons_of_pos (by simp [hec]), callsOf, callsOf, ih]

/-- One client first, the others after it. -/
def soloFirst (c : κ) (w : List (κ × ι)) : List (κ × ι) :=
  ((callsOf c w).map fun i => (c, i)) ++ w.filter fun x => x.1 ≠ c

/-- This is the same schedule, client by client. -/
theorem callsOf_soloFirst (c d : κ) (w : List (κ × ι)) :
    callsOf d (soloFirst c w) = callsOf d w := by
  rw [soloFirst, callsOf_append, callsOf_map, callsOf_filter]
  by_cases hcd : c = d
  · rw [if_pos hcd, if_pos hcd, hcd, List.append_nil]
  · rw [if_neg hcd, if_neg hcd, List.nil_append]

end Schedule

/-! ## Separation -/

/-- Under the invariant `Q`, the calls that clients are allowed keep the invariant,
and those of different clients commute. -/
structure Separates (M : Machine σ ι ο) (Q : σ → Prop) (Allowed : κ → ι → Prop) : Prop where
  keeps : ∀ c i s, Allowed c i → Q s → Q (M.next i s)
  commute : ∀ c d i j s, c ≠ d → Allowed c i → Allowed d j → Q s → M.CommuteAt i j s

namespace Separates

variable {M : Machine σ ι ο} {Q : σ → Prop} {Allowed : κ → ι → Prop}

theorem keeps_solo (h : Separates M Q Allowed) {c : κ} {is : List ι}
    (his : ∀ i ∈ is, Allowed c i) {s : σ} (hs : Q s) : Q (M.run is s) := by
  induction is generalizing s with
  | nil => exact hs
  | cons i is ih =>
      have hnext := h.keeps c i s (his i List.mem_cons_self) hs
      exact ih (fun j hj => his j (List.mem_cons_of_mem i hj)) hnext

/-- A call can be moved in front of calls of other clients. -/
theorem commute_run (h : Separates M Q Allowed) {c : κ} {i : ι} (hi : Allowed c i)
    {w : List (κ × ι)} (hw : ∀ x ∈ w, Allowed x.1 x.2) (hother : ∀ x ∈ w, x.1 ≠ c) {s : σ}
    (hs : Q s) :
    M.reply i (M.run (w.map Prod.snd) s) = M.reply i s ∧
      M.next i (M.run (w.map Prod.snd) s) = M.run (w.map Prod.snd) (M.next i s) := by
  induction w generalizing s with
  | nil => exact ⟨rfl, rfl⟩
  | cons x w ih =>
      obtain ⟨d, j⟩ := x
      have hj : Allowed d j := hw (d, j) List.mem_cons_self
      have hdc : d ≠ c := hother (d, j) List.mem_cons_self
      have hcomm := h.commute c d i j s hdc.symm hi hj hs
      obtain ⟨hreply, hnext⟩ := ih (fun y hy => hw y (List.mem_cons_of_mem _ hy))
        (fun y hy => hother y (List.mem_cons_of_mem _ hy)) (h.keeps d j s hj hs)
      simp only [List.map_cons, run_cons]
      exact ⟨hreply.trans hcomm.reply_left, by rw [hnext, hcomm.next]⟩

/-- A client does not notice one call of another. -/
theorem replies_next (h : Separates M Q Allowed) {c d : κ} (hcd : c ≠ d) {j : ι}
    (hj : Allowed d j) {is : List ι} (his : ∀ i ∈ is, Allowed c i) {s : σ} (hs : Q s) :
    M.replies is (M.next j s) = M.replies is s := by
  induction is generalizing s with
  | nil => rfl
  | cons i is ih =>
      have hi : Allowed c i := his i List.mem_cons_self
      have hcomm := h.commute c d i j s hcd hi hj hs
      have hrest := ih (fun i' hi' => his i' (List.mem_cons_of_mem i hi')) (h.keeps c i s hi hs)
      rw [replies_cons, replies_cons, hcomm.reply_left, ← hcomm.next, hrest]

variable [DecidableEq κ]

/-- **Isolation.**  A client is answered as if it were alone. -/
theorem repliesTo_eq (h : Separates M Q Allowed) (c : κ) {w : List (κ × ι)}
    (hw : ∀ x ∈ w, Allowed x.1 x.2) {s : σ} (hs : Q s) :
    repliesTo M c w s = M.replies (callsOf c w) s := by
  induction w generalizing s with
  | nil => rfl
  | cons x w ih =>
      obtain ⟨d, j⟩ := x
      have hj : Allowed d j := hw (d, j) List.mem_cons_self
      have hrest : ∀ x ∈ w, Allowed x.1 x.2 := fun y hy => hw y (List.mem_cons_of_mem _ hy)
      rw [repliesTo, callsOf, ih hrest (h.keeps d j s hj hs)]
      by_cases hdc : d = c
      · rw [if_pos hdc, if_pos hdc, replies_cons]
      · rw [if_neg hdc, if_neg hdc]
        have hown : ∀ i ∈ callsOf c w, Allowed c i :=
          fun i hi => hrest (c, i) (mem_callsOf.mp hi)
        exact h.replies_next (fun hcd => hdc hcd.symm) hj hown hs

/-- **The order of turns is irrelevant.**  Schedules in which each client makes the
same calls lead to the same state. -/
theorem run_eq_of_callsOf (h : Separates M Q Allowed) {w w' : List (κ × ι)}
    (hw : ∀ x ∈ w, Allowed x.1 x.2) (hsame : ∀ c, callsOf c w' = callsOf c w) {s : σ} (hs : Q s) :
    M.run (w'.map Prod.snd) s = M.run (w.map Prod.snd) s := by
  induction w generalizing w' s with
  | nil =>
      have hnil : w' = [] := by
        rw [List.eq_nil_iff_forall_not_mem]
        intro x hx
        have hmem := mem_callsOf.mpr (show (x.1, x.2) ∈ w' from hx)
        rw [hsame x.1] at hmem
        exact absurd hmem List.not_mem_nil
      rw [hnil]
  | cons x w ih =>
      obtain ⟨c, i⟩ := x
      have hi : Allowed c i := hw (c, i) List.mem_cons_self
      -- the other schedule makes this call after calls of other clients only
      have hfirst : callsOf c w' = i :: callsOf c w := by
        rw [hsame c, callsOf, if_pos rfl]
      obtain ⟨before, after, rfl, hbefore⟩ := exists_of_callsOf_cons hfirst
      have hallowed : ∀ x ∈ before, Allowed x.1 x.2 := by
        intro x hx
        apply hw
        rw [← mem_callsOf, ← hsame, mem_callsOf]
        exact List.mem_append_left _ hx
      have hmoved := (h.commute_run hi hallowed hbefore hs).2
      have hrest : ∀ d, callsOf d (before ++ after) = callsOf d w := by
        intro d
        have hd := hsame d
        rw [callsOf_append] at hd ⊢
        rw [callsOf, callsOf] at hd
        by_cases hcd : c = d
        · subst hcd
          rw [callsOf_eq_nil hbefore] at hd ⊢
          simpa using hd
        · simpa [hcd] using hd
      calc M.run ((before ++ (c, i) :: after).map Prod.snd) s
          _ = M.run (after.map Prod.snd) (M.next i (M.run (before.map Prod.snd) s)) := by
            rw [List.map_append, run_append]
            rfl
          _ = M.run ((before ++ after).map Prod.snd) (M.next i s) := by
            rw [hmoved, List.map_append, run_append]
          _ = M.run (w.map Prod.snd) (M.next i s) :=
            ih (fun y hy => hw y (List.mem_cons_of_mem _ hy)) hrest (h.keeps c i s hi hs)

/-- What the calls of other clients leave alone is, after any schedule, as if the
client had been alone. -/
theorem view_eq (h : Separates M Q Allowed) (c : κ) (view : σ → ν)
    (hview : ∀ d j s, d ≠ c → Allowed d j → Q s → view (M.next j s) = view s)
    {w : List (κ × ι)} (hw : ∀ x ∈ w, Allowed x.1 x.2) {s : σ} (hs : Q s) :
    view (M.run (w.map Prod.snd) s) = view (M.run (callsOf c w) s) := by
  have hothers : ∀ (w : List (κ × ι)) (s : σ), (∀ x ∈ w, Allowed x.1 x.2 ∧ x.1 ≠ c) → Q s →
      view (M.run (w.map Prod.snd) s) = view s := by
    intro w
    induction w with
    | nil => exact fun _ _ _ => rfl
    | cons x w ih =>
        intro s hx hs
        obtain ⟨hallowed, hne⟩ := hx x List.mem_cons_self
        have hnext := h.keeps x.1 x.2 s hallowed hs
        rw [List.map_cons, run_cons, ih _ (fun y hy => hx y (List.mem_cons_of_mem x hy)) hnext]
        exact hview x.1 x.2 s hne hallowed hs
  have hsolo : (soloFirst c w).map Prod.snd =
      callsOf c w ++ (w.filter fun x => x.1 ≠ c).map Prod.snd := by
    rw [soloFirst, List.map_append, List.map_map]
    exact congrArg (· ++ _) (List.map_id _)
  have hown : Q (M.run (callsOf c w) s) := by
    have hallowed : ∀ i ∈ callsOf c w, Allowed c i := fun i hi => hw (c, i) (mem_callsOf.mp hi)
    exact h.keeps_solo hallowed hs
  rw [← h.run_eq_of_callsOf hw (fun d => callsOf_soloFirst c d w) hs, hsolo, run_append]
  apply hothers _ _ _ hown
  intro x hx
  obtain ⟨hmem, hne⟩ := List.mem_filter.mp hx
  exact ⟨hw x hmem, by simpa using hne⟩

end Separates

end Machine

end Reactive

import Mathlib.Data.List.Forall2
import Mathlib.Data.List.Nodup

namespace ScriptAudit

theorem bind_eq_ok_iff {α β ε : Type} {x : Except ε α} {f : α → Except ε β} {b : β} :
    x >>= f = .ok b ↔ ∃ a, x = .ok a ∧ f a = .ok b := by
  cases x with
  | error e => simp [bind, Except.bind]
  | ok a => simp [bind, Except.bind]

theorem mapError_eq_ok_iff {α ε ε' : Type} {f : ε → ε'} {x : Except ε α} {a : α} :
    x.mapError f = .ok a ↔ x = .ok a := by
  cases x <;> simp [Except.mapError]

/-- The error that a check ends in. -/
def errorOf? {α ε : Type} : Except ε α → Option ε
  | .ok _ => none
  | .error e => some e

theorem errorOf?_eq_some_iff {α ε : Type} {x : Except ε α} {e : ε} : errorOf? x = some e ↔ x = .error e := by
  cases x <;> simp [errorOf?]

theorem errorOf?_eq_none_iff {α ε : Type} {x : Except ε α} : errorOf? x = none ↔ ∃ a, x = .ok a := by
  cases x <;> simp [errorOf?]

/-- A traversal succeeds where every step does. -/
theorem mapM_eq_ok_iff {α β ε : Type} {f : α → Except ε β} {xs : List α} {ys : List β} :
    xs.mapM f = .ok ys ↔ List.Forall₂ (fun x y => f x = .ok y) xs ys := by
  induction xs generalizing ys with
  | nil =>
    rw [List.mapM_nil, List.forall₂_nil_left_iff]
    exact ⟨fun h => (Except.ok.inj h).symm, fun h => h ▸ rfl⟩
  | cons x xs ih =>
    rw [List.mapM_cons, List.forall₂_cons_left_iff, bind_eq_ok_iff]
    simp only [bind_eq_ok_iff, ih]
    constructor
    · rintro ⟨y, hx, rest, hxs, h⟩
      exact ⟨y, rest, hx, hxs, (Except.ok.inj h).symm⟩
    · rintro ⟨y, rest, hx, hxs, rfl⟩
      exact ⟨y, hx, rest, hxs, rfl⟩

theorem mapM_eq_ok {α β ε : Type} {f : α → Except ε β} {g : α → β} {xs : List α} (h : ∀ x ∈ xs, f x = .ok (g x)) :
    xs.mapM f = .ok (xs.map g) := by
  rw [mapM_eq_ok_iff, List.forall₂_map_right_iff]
  exact List.forall₂_same.mpr h

theorem exists_forall₂ {α β : Type} {r : α → β → Prop} {xs : List α} (h : ∀ x ∈ xs, ∃ y, r x y) :
    ∃ ys, List.Forall₂ r xs ys := by
  induction xs with
  | nil => exact ⟨[], .nil⟩
  | cons x xs ih =>
    obtain ⟨y, hy⟩ := h x List.mem_cons_self
    obtain ⟨ys, hys⟩ := ih fun z hz => h z (List.mem_cons_of_mem x hz)
    exact ⟨y :: ys, .cons hy hys⟩

theorem map_eq_of_forall₂ {α β γ : Type} {r : α → β → Prop} {f : α → γ} {g : β → γ} {xs : List α} {ys : List β}
    (h : List.Forall₂ r xs ys) (hfg : ∀ x y, r x y → g y = f x) : ys.map g = xs.map f := by
  induction h with
  | nil => rfl
  | cons hhead _ ih => rw [List.map_cons, List.map_cons, hfg _ _ hhead, ih]

theorem exists_of_forall₂_of_mem {α β : Type} {r : α → β → Prop} {xs : List α} {ys : List β}
    (h : List.Forall₂ r xs ys) {y : β} (hy : y ∈ ys) : ∃ x ∈ xs, r x y := by
  induction h with
  | nil => exact absurd hy List.not_mem_nil
  | cons hhead _ ih =>
    rcases List.mem_cons.mp hy with rfl | hy
    · exact ⟨_, List.mem_cons_self, hhead⟩
    · obtain ⟨x, hx, hxy⟩ := ih hy
      exact ⟨x, List.mem_cons_of_mem _ hx, hxy⟩

/-- A traversal fails at the first element that does. -/
theorem mapM_eq_error {α β ε : Type} {f : α → Except ε β} {xs : List α} {e : ε} (h : xs.mapM f = .error e) :
    ∃ (i : Nat) (x : α), xs[i]? = some x ∧ f x = .error e ∧ ∀ j < i, ∀ y, xs[j]? = some y → ∃ b, f y = .ok b := by
  induction xs with
  | nil => exact absurd h (by simp [pure, Except.pure])
  | cons x xs ih =>
    rw [List.mapM_cons] at h
    cases hx : f x with
    | error e' =>
      rw [hx] at h
      cases Except.error.inj h
      exact ⟨0, x, rfl, hx, by simp⟩
    | ok b =>
      rw [hx] at h
      cases hxs : xs.mapM f with
      | ok bs =>
        simp only [hxs] at h
        exact absurd h (by simp [bind, Except.bind, pure, Except.pure])
      | error e' =>
        rw [hxs] at h
        cases Except.error.inj h
        obtain ⟨i, y, hy, hfails, hbefore⟩ := ih hxs
        refine ⟨i + 1, y, hy, hfails, ?_⟩
        intro j hj z hz
        cases j with
        | zero => exact ⟨b, (Option.some.inj hz) ▸ hx⟩
        | succ j => exact hbefore j (by omega) z hz

theorem exists_mapM_eq_ok_iff {α β ε : Type} {f : α → Except ε β} {xs : List α} :
    (∃ ys, xs.mapM f = .ok ys) ↔ ∀ x ∈ xs, ∃ y, f x = .ok y := by
  constructor
  · rintro ⟨ys, hys⟩ x hx
    obtain ⟨y, _, hy⟩ := exists_of_forall₂_of_mem (List.Forall₂.flip (mapM_eq_ok_iff.mp hys)) hx
    exact ⟨y, hy⟩
  · intro h
    cases hmapped : xs.mapM f with
    | ok ys => exact ⟨ys, rfl⟩
    | error e =>
      obtain ⟨_, x, hx, hfails, _⟩ := mapM_eq_error hmapped
      obtain ⟨y, hy⟩ := h x (List.mem_of_getElem? hx)
      rw [hfails] at hy
      exact absurd hy (by simp)

theorem sublist_of_mem_splitOn {α : Type} [DecidableEq α] {bar : α} {xs piece : List α}
    (h : piece ∈ xs.splitOn bar) : piece.Sublist xs := by
  induction xs generalizing piece with
  | nil =>
    rw [List.splitOn_nil, List.mem_singleton] at h
    rw [h]
  | cons x xs ih =>
    rw [List.splitOn_cons_eq_if_modifyHead] at h
    split_ifs at h
    · rcases List.mem_cons.mp h with rfl | h
      · exact List.nil_sublist _
      · exact (ih h).cons x
    · obtain ⟨first, rest, hsplit⟩ := List.exists_cons_of_ne_nil (List.splitOn_ne_nil bar xs)
      rw [hsplit] at ih h
      rcases List.mem_cons.mp h with rfl | h
      · exact (ih List.mem_cons_self).cons_cons x
      · exact (ih (List.mem_cons_of_mem first h)).cons x

theorem eq_or_mem_splitOn {c bar : Char} {cs : List Char} (h : c ∈ cs) :
    c = bar ∨ ∃ w ∈ cs.splitOn bar, c ∈ w := by
  induction cs with
  | nil => exact absurd h List.not_mem_nil
  | cons d ds ih =>
    rw [List.splitOn_cons_eq_if_modifyHead]
    by_cases hd : d = bar
    · rw [if_pos (by simpa using hd)]
      rcases List.mem_cons.mp h with rfl | h
      · exact .inl hd
      refine (ih h).imp_right ?_
      rintro ⟨w, hw, hc⟩
      exact ⟨w, List.mem_cons_of_mem _ hw, hc⟩
    · rw [if_neg (by simpa using hd)]
      obtain ⟨first, rest, hsplit⟩ := List.exists_cons_of_ne_nil (List.splitOn_ne_nil bar ds)
      rw [hsplit] at ih ⊢
      rcases List.mem_cons.mp h with rfl | h
      · exact .inr ⟨c :: first, List.mem_cons_self, List.mem_cons_self⟩
      refine (ih h).imp_right ?_
      rintro ⟨w, hw, hc⟩
      rcases List.mem_cons.mp hw with rfl | hw
      · exact ⟨d :: w, List.mem_cons_self, List.mem_cons_of_mem d hc⟩
      · exact ⟨w, List.mem_cons_of_mem _ hw, hc⟩

theorem rel_of_find? {α : Type} {r : α → α → Prop} {p : α → Bool} {xs : List α} (h : xs.Pairwise r) {a b : α}
    (hfind : xs.find? p = some a) (hb : b ∈ xs) (hp : p b = true) : a = b ∨ r a b := by
  obtain ⟨_, before, after, rfl, hbefore⟩ := List.find?_eq_some_iff_append.mp hfind
  rw [List.pairwise_append, List.pairwise_cons] at h
  rcases List.mem_append.mp hb with hb | hb
  · exact absurd hp (by simpa using hbefore b hb)
  · rcases List.mem_cons.mp hb with rfl | hb
    · exact .inl rfl
    · exact .inr (h.2.1.1 b hb)

/-- Where everything that is found carries the key of its source, a key picks out the sources that have it. -/
theorem flatMap_filter_key {α β κ : Type} [DecidableEq κ] {sources : List α} {found : α → List β} {key : α → κ}
    {keyOf : β → κ} (h : ∀ source, ∀ f ∈ found source, keyOf f = key source) (k : κ) :
    (sources.flatMap found).filter (keyOf · = k) = (sources.filter (key · = k)).flatMap found := by
  induction sources with
  | nil => rfl
  | cons source rest ih =>
    rw [List.flatMap_cons, List.filter_append, ih]
    by_cases hkey : key source = k
    · have hall : (found source).filter (keyOf · = k) = found source :=
        List.filter_eq_self.mpr fun f hf => by simpa using (h source f hf).trans hkey
      rw [hall, List.filter_cons_of_pos (by simpa using hkey), List.flatMap_cons]
    · have hnone : (found source).filter (keyOf · = k) = [] :=
        List.filter_eq_nil_iff.mpr fun f hf => by simpa [h source f hf] using hkey
      rw [hnone, List.filter_cons_of_neg (by simpa using hkey), List.nil_append]

theorem mem_of_mem_others {α : Type} {x y : α} {before after : List α} (h : x ∈ before ++ after) :
    x ∈ before ++ y :: after :=
  ((List.sublist_cons_self y after).append_left before).subset h

theorem nodup_eraseDups {α : Type} [DecidableEq α] (xs : List α) : xs.eraseDups.Nodup := by
  match xs with
  | [] => exact List.nodup_nil
  | x :: rest =>
    have hlt : (rest.filter fun y => !y == x).length < rest.length + 1 :=
      Nat.lt_succ_of_le (List.length_filter_le _ _)
    rw [List.eraseDups_cons, List.nodup_cons]
    refine ⟨?_, nodup_eraseDups _⟩
    rw [List.mem_eraseDups, List.mem_filter]
    rintro ⟨_, hx⟩
    simp at hx
termination_by xs.length

/-- Counting under each of some different keys, one of which everything has, counts everything. -/
theorem sum_countP_keys {α κ : Type} [DecidableEq κ] (key : α → κ) {keys : List κ} (hkeys : keys.Nodup) (xs : List α)
    (hall : ∀ x ∈ xs, key x ∈ keys) :
    (keys.map fun k => (xs.countP (key · = k) : Int)).foldr (· + ·) 0 = (xs.length : Int) := by
  induction keys generalizing xs with
  | nil =>
    have hempty : xs = [] := List.eq_nil_iff_forall_not_mem.mpr fun x hx => List.not_mem_nil (hall x hx)
    simp [hempty]
  | cons k keys ih =>
    obtain ⟨hk, hkeys⟩ := List.nodup_cons.mp hkeys
    -- What has the first key is counted there, and the other keys see only the rest.
    have hothers : ∀ x ∈ xs.filter (key · ≠ k), key x ∈ keys := by
      intro x hx
      obtain ⟨hmem, hne⟩ := List.mem_filter.mp hx
      exact (List.mem_cons.mp (hall x hmem)).resolve_left (of_decide_eq_true hne)
    have hrest : ∀ k' ∈ keys, xs.countP (key · = k') = (xs.filter (key · ≠ k)).countP (key · = k') := by
      intro k' hk'
      rw [List.countP_filter]
      refine List.countP_congr ?_
      intro x _
      have hne : k' ≠ k := fun h => hk (h ▸ hk')
      by_cases hx : key x = k' <;> simp [hx, hne]
    have hsum : keys.map (fun k' => (xs.countP (key · = k') : Int)) =
        keys.map fun k' => ((xs.filter (key · ≠ k)).countP (key · = k') : Int) :=
      List.map_congr_left fun k' hk' => by rw [hrest k' hk']
    have hlength := List.length_eq_countP_add_countP (l := xs) (fun x => decide (key x = k))
    have hneg : xs.countP (fun x => decide ¬decide (key x = k) = true) = (xs.filter (key · ≠ k)).length := by
      rw [List.countP_eq_length_filter]
      simp
    rw [List.map_cons, List.foldr_cons, hsum, ih hkeys _ hothers, hlength, hneg]
    omega

end ScriptAudit

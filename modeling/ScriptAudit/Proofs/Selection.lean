import Mathlib.Data.List.TakeWhile
import ScriptAudit.Audit.Survey
import ScriptAudit.Proofs.Lists

namespace ScriptAudit

namespace Path

theorem relativeTo?_descendant (base : Path) (names : List String) :
    (base.descendant names).relativeTo? base = some ⟨"", names⟩ := by
  simp [relativeTo?, descendant]

theorem display_descendant (base : Path) {names : List String} (hnames : names ≠ []) :
    display base (base.descendant names) = "/".intercalate names := by
  rw [display, relativeTo?_descendant, Option.getD_some, toText, if_neg (by simp [hnames])]
  exact String.empty_append

/-- The names can be read back from a text in which they are separated by slashes. -/
theorem intercalate_injective {names others : List String} (hnames : ∀ name ∈ names, '/' ∉ name.toList)
    (hothers : ∀ name ∈ others, '/' ∉ name.toList) (hne : names ≠ []) (hne' : others ≠ [])
    (h : "/".intercalate names = "/".intercalate others) : names = others := by
  have hsplit {names : List String} (hnames : ∀ name ∈ names, '/' ∉ name.toList) (hne : names ≠ []) :
      ("/".intercalate names).toList.splitOn '/' = names.map String.toList := by
    rw [String.toList_intercalate]
    exact List.splitOn_intercalate '/' (by simpa using hnames) (by simpa using hne)
  have htexts : names.map String.toList = others.map String.toList := by
    rw [← hsplit hnames hne, ← hsplit hothers hne', h]
  exact List.map_injective_iff.mpr (fun _ _ => String.toList_inj.mp) htexts

theorem descendant_cons (base : Path) (name : String) (names : List String) :
    base.descendant (name :: names) = (base.child name).descendant names := by
  simp [descendant, child]

theorem descendant_injective (base : Path) {names others : List String}
    (h : base.descendant names = base.descendant others) : names = others :=
  List.append_cancel_left (congrArg Path.parts h)

end Path

/-- No place has two entries, and no name has a slash in it. -/
structure Disk.Proper (d : Disk) : Prop where
  distinct : (d.entries.map (·.1)).Nodup
  names : ∀ place ∈ d.entries.map (·.1), ∀ name ∈ place, '/' ∉ name.toList

namespace Disk

variable {d : Disk} {p : Path} {place : Place}

/-- What is listed below a directory are entries of the disk, each in its turn. -/
theorem below_sublist (hplace : d.locate p = .ok place) :
    (((d.below p).map (·.1)).map (place ++ ·)).Sublist (d.entries.map (·.1)) := by
  rw [below, hplace]
  induction d.entries with
  | nil => exact List.Sublist.refl _
  | cons entry rest ih =>
    simp only [List.filterMap_cons, List.map_cons]
    split
    next hnone => exact ih.cons _
    next found hfound =>
      split_ifs at hfound with hbelow
      cases hfound
      obtain ⟨names, hnames⟩ := List.isPrefixOf_iff_prefix.mp ((Bool.and_eq_true _ _).mp hbelow).1
      rw [List.map_cons, List.map_cons, ← hnames, List.drop_left]
      exact ih.cons_cons _

theorem below_ne_nil {e : Place × Node} (h : e ∈ d.below p) : e.1 ≠ [] := by
  unfold below at h
  split at h
  next =>
    obtain ⟨⟨other, node⟩, _, hsome⟩ := List.mem_filterMap.mp h
    simp only at hsome
    split_ifs at hsome with hbelow
    cases hsome
    have hlt := of_decide_eq_true ((Bool.and_eq_true _ _).mp hbelow).2
    rw [ne_eq, List.drop_eq_nil_iff]
    omega
  next => exact absurd h List.not_mem_nil

theorem visited_sublist {entries : List (Place × Node)} {names : List Place} (h : d.visited p entries = .ok names) :
    names.Sublist (entries.map (·.1)) := by
  induction entries generalizing names with
  | nil =>
    cases h
    exact List.Sublist.refl _
  | cons entry rest ih =>
    obtain ⟨comes, _, h⟩ := bind_eq_ok_iff.mp h
    obtain ⟨others, hothers, h⟩ := bind_eq_ok_iff.mp h
    cases h
    split
    · exact (ih hothers).cons_cons _
    · exact (ih hothers).cons _

/-- A walk comes to entries below the directory, and to each of them once. -/
theorem walk_sublist {names : List Place} (h : d.walk p = .ok names) : names.Sublist ((d.below p).map (·.1)) := by
  obtain ⟨isDir, _, h⟩ := bind_eq_ok_iff.mp h
  cases isDir with
  | true => exact visited_sublist h
  | false =>
    cases h
    exact List.nil_sublist _

end Disk

namespace Survey

variable (s : Survey) (d : Disk)

/-- The entries below the root in order; none if they cannot be listed. -/
def listing : List Place := (s.entries d).toOption.getD []

/-- Whether it can be told if an entry is a directory. -/
def isExaminable (names : Place) : Bool := (d.isDir (s.root.descendant names)).isOk

/-- The entries that come before the first that cannot be examined. -/
def reached : List Place := (s.listing d).takeWhile (s.isExaminable d)

/-- The file that an entry is, if it is one to audit. -/
def choice? (names : Place) : Option Path :=
  if d.isDir (s.root.descendant names) = .ok false then (s.judge d names).1 else none

variable {s d}

theorem isExaminable_iff {names : Place} :
    s.isExaminable d names = true ↔ ∃ answer, d.isDir (s.root.descendant names) = .ok answer := by
  unfold isExaminable
  cases d.isDir (s.root.descendant names) <;> simp [Except.isOk, Except.toBool]

theorem isExaminable_eq_false_iff {names : Place} :
    s.isExaminable d names = false ↔ ∃ r, d.isDir (s.root.descendant names) = .error r := by
  unfold isExaminable
  cases d.isDir (s.root.descendant names) <;> simp [Except.isOk, Except.toBool]

theorem examine_of_error {names : Place} {r : Disk.Refused} (h : d.isDir (s.root.descendant names) = .error r) :
    s.examine d names = .error r := by
  rw [examine, h]
  rfl

theorem examine_of_ok {names : Place} {answer : Bool} (h : d.isDir (s.root.descendant names) = .ok answer) :
    ∃ log, s.examine d names = .ok (s.choice? d names, log) := by
  rw [examine, choice?, h]
  cases answer with
  | true => exact ⟨[], rfl⟩
  | false => exact ⟨(s.judge d names).2, rfl⟩

/-- What has been selected are the files to audit among the entries before the first that cannot be examined. -/
theorem files_select (entries : List Place) :
    (s.select d entries).files = (entries.takeWhile (s.isExaminable d)).filterMap (s.choice? d) := by
  induction entries with
  | nil => rfl
  | cons names rest ih =>
    rw [select]
    cases hdir : d.isDir (s.root.descendant names) with
    | error r =>
      rw [examine_of_error hdir, List.takeWhile_cons_of_neg (by simp [isExaminable_eq_false_iff, hdir])]
      rfl
    | ok answer =>
      obtain ⟨log, hexamine⟩ := examine_of_ok hdir
      rw [hexamine, List.takeWhile_cons_of_pos (isExaminable_iff.mpr ⟨answer, hdir⟩), List.filterMap_cons]
      simp only [ih]
      cases s.choice? d names <;> rfl

/-- A selection stops at the first entry that cannot be examined. -/
theorem refused_select (entries : List Place) :
    (s.select d entries).refused = entries.findSome? fun names => errorOf? (d.isDir (s.root.descendant names)) := by
  induction entries with
  | nil => rfl
  | cons names rest ih =>
    rw [select, List.findSome?_cons]
    cases hdir : d.isDir (s.root.descendant names) with
    | error r =>
      rw [examine_of_error hdir]
      rfl
    | ok answer =>
      obtain ⟨log, hexamine⟩ := examine_of_ok hdir
      rw [hexamine]
      exact ih

theorem refused_select_eq_some_iff {entries : List Place} {r : Disk.Refused} :
    (s.select d entries).refused = some r ↔
      ∃ before names after, entries = before ++ names :: after ∧ d.isDir (s.root.descendant names) = .error r ∧
        ∀ other ∈ before, s.isExaminable d other = true := by
  simp only [refused_select, List.findSome?_eq_some_iff, errorOf?_eq_some_iff, errorOf?_eq_none_iff, isExaminable_iff]

theorem refused_select_eq_none_iff {entries : List Place} :
    (s.select d entries).refused = none ↔ ∀ names ∈ entries, s.isExaminable d names = true := by
  simp only [refused_select, List.findSome?_eq_none_iff, errorOf?_eq_none_iff, isExaminable_iff]

theorem listing_of_entries {entries : List Place} (h : s.entries d = .ok entries) : s.listing d = entries := by
  rw [listing, h]
  rfl

theorem refused?_of_entries {entries : List Place} (h : s.entries d = .ok entries) :
    s.refused? d = (s.select d entries).refused := by
  rw [refused?, selection, h]

theorem files_eq_filterMap : s.files d = (s.reached d).filterMap (s.choice? d) := by
  rw [files, selection, reached]
  cases hentries : s.entries d with
  | ok entries => rw [listing_of_entries hentries, files_select]
  | error r => simp [listing, hentries, Except.toOption]

/-- Where the search for files reaches the end, all entries have been examined. -/
theorem reached_of_not_refused (h : s.refused? d = none) : s.reached d = s.listing d := by
  cases hentries : s.entries d with
  | ok entries =>
    rw [refused?_of_entries hentries, refused_select_eq_none_iff] at h
    rw [reached, listing_of_entries hentries]
    exact List.takeWhile_eq_self_iff.mpr h
  | error r => simp [refused?, selection, hentries] at h

/-- Of an entry that is to be audited, the path and its size. -/
theorem choice?_eq_some {names : Place} {p : Path} (h : s.choice? d names = some p) :
    p = s.root.descendant names ∧ ∃ size : Nat, d.size p = .ok size ∧ (size : Int) ≤ s.session.maxFileSize := by
  unfold choice? judge at h
  split at h
  next =>
    simp only at h
    split at h
    next => exact absurd h (by simp)
    next =>
      split at h
      next size hsize =>
        split at h
        next hle =>
          cases h
          exact ⟨rfl, size, hsize, hle⟩
        next => exact absurd h (by simp)
      next => exact absurd h (by simp)
  next => exact absurd h (by simp)

theorem mem_files {p : Path} (h : p ∈ s.files d) : ∃ names ∈ s.listing d, s.choice? d names = some p := by
  rw [files_eq_filterMap] at h
  obtain ⟨names, hnames, hp⟩ := List.mem_filterMap.mp h
  exact ⟨names, (List.takeWhile_sublist _).subset hnames, hp⟩

theorem files_eq : s.files d = ((s.reached d).filter fun names => (s.choice? d names).isSome).map s.root.descendant := by
  rw [files_eq_filterMap]
  induction s.reached d with
  | nil => rfl
  | cons names rest ih =>
    cases hp : s.choice? d names with
    | none => simp only [List.filterMap_cons, List.filter_cons, hp, Option.isSome_none, Bool.false_eq_true, if_false, ih]
    | some p =>
      simp only [List.filterMap_cons, List.filter_cons, hp, Option.isSome_some, if_true, List.map_cons, ih]
      rw [(choice?_eq_some hp).1]

theorem listing_sorted : (s.listing d).Pairwise fun a b => ¬ b < a := by
  unfold listing entries
  cases d.walk s.root with
  | error r => exact List.Pairwise.nil
  | ok names =>
    refine (List.pairwise_mergeSort ?_ ?_ names).imp ?_
    · intro a b c hab hbc
      simp only [Bool.not_eq_true', decide_eq_false_iff_not] at hab hbc ⊢
      exact List.le_trans hab hbc
    · intro a b
      simp only [Bool.or_eq_true, Bool.not_eq_true', decide_eq_false_iff_not]
      exact List.le_total a b
    · intro a b hab
      simpa only [Bool.not_eq_true', decide_eq_false_iff_not] using hab

/-- Files are in the order of their paths. -/
theorem files_sorted : (s.files d).Pairwise fun p q => ¬ q.parts < p.parts := by
  rw [files_eq, List.pairwise_map]
  refine ((listing_sorted.sublist (List.takeWhile_sublist _)).filter _).imp ?_
  intro a b hab
  exact List.append_left_le hab

/-- The listing are names that a walk comes to, if it comes to an end. -/
theorem listing_perm {names : List Place} (h : d.walk s.root = .ok names) : (s.listing d).Perm names := by
  rw [listing, entries, h]
  exact List.mergeSort_perm names _

theorem listing_of_walk_error {r : Disk.Refused} (h : d.walk s.root = .error r) : s.listing d = [] := by
  rw [listing, entries, h]
  rfl

theorem listing_ne_nil {names : Place} (h : names ∈ s.listing d) : names ≠ [] := by
  cases hwalk : d.walk s.root with
  | error r => simp [listing_of_walk_error hwalk] at h
  | ok walked =>
    have hmem := (Disk.walk_sublist hwalk).subset ((listing_perm hwalk).mem_iff.mp h)
    obtain ⟨e, he, rfl⟩ := List.mem_map.mp hmem
    exact Disk.below_ne_nil he

variable (s)

/-- The entries below the root have different names, and no name has a slash in it. -/
theorem listing_proper (hd : d.Proper) :
    (s.listing d).Nodup ∧ ∀ names ∈ s.listing d, ∀ name ∈ names, '/' ∉ name.toList := by
  cases hwalk : d.walk s.root with
  | error r => simp [listing_of_walk_error hwalk]
  | ok walked =>
    have hperm := listing_perm hwalk
    have hwalked := Disk.walk_sublist hwalk
    cases hlocate : d.locate s.root with
    | error e =>
      have hnil : walked = [] := by simpa [Disk.below, hlocate] using hwalked
      rw [hnil] at hperm
      simp [hperm.eq_nil]
    | ok place =>
      have hsub := (hwalked.map (place ++ ·)).trans (Disk.below_sublist hlocate)
      constructor
      · exact hperm.nodup_iff.mpr ((hd.distinct.sublist hsub).of_map _)
      · intro names hnames name hname
        have hplaced := hsub.subset (List.mem_map_of_mem (hperm.mem_iff.mp hnames))
        exact hd.names _ hplaced name (List.mem_append_right _ hname)

theorem files_nodup (hd : d.Proper) : (s.files d).Nodup := by
  rw [files_eq]
  have hreached := (s.listing_proper hd).1.sublist (List.takeWhile_sublist (s.isExaminable d))
  exact (hreached.filter _).map fun _ _ => s.root.descendant_injective

/-- Files are told apart by how they are shown. -/
theorem display_injective (hd : d.Proper) {p q : Path} (hp : p ∈ s.files d) (hq : q ∈ s.files d)
    (h : Path.display s.root p = Path.display s.root q) : p = q := by
  obtain ⟨names, hnames, hp⟩ := mem_files hp
  obtain ⟨others, hothers, hq⟩ := mem_files hq
  rw [(choice?_eq_some hp).1, (choice?_eq_some hq).1] at h ⊢
  have hne := listing_ne_nil hnames
  have hne' := listing_ne_nil hothers
  rw [Path.display_descendant _ hne, Path.display_descendant _ hne'] at h
  have hslash := (s.listing_proper hd).2
  rw [Path.intercalate_injective (hslash _ hnames) (hslash _ hothers) hne hne' h]

theorem relativeTo?_of_mem_files {p : Path} (h : p ∈ s.files d) :
    ∃ relative, p.relativeTo? s.root = some relative ∧ Path.display s.root p = relative.toText := by
  obtain ⟨names, _, hp⟩ := mem_files h
  have hrelative := s.root.relativeTo?_descendant names
  rw [← (choice?_eq_some hp).1] at hrelative
  exact ⟨_, hrelative, by rw [Path.display, hrelative, Option.getD_some]⟩

theorem size_of_mem_files {p : Path} (h : p ∈ s.files d) :
    ∃ size : Nat, d.size p = .ok size ∧ (size : Int) ≤ s.session.maxFileSize := by
  obtain ⟨names, _, hp⟩ := mem_files h
  exact (choice?_eq_some hp).2

end Survey

end ScriptAudit

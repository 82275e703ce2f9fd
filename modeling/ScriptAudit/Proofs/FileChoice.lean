import ScriptAudit.Proofs.Trees

namespace ScriptAudit

namespace Survey

variable (s : Survey) (d : Disk)

/-- What is asked of an entry for its file to be audited. Its own name is held against the globs alone, and the names of
the directories above it, up to the root, against the excluded ones. -/
structure Selects (names : Place) : Prop where
  noDir : d.isDir (s.root.descendant names) = .ok false
  included : ∃ glob ∈ s.includes, (Glob.ofText glob).accepts (names.getLastD "").toList = true
  outside : ∀ name ∈ names.dropLast, name ∉ s.excludes
  size : ∃ size : Nat, d.size (s.root.descendant names) = .ok size ∧ (size : Int) ≤ s.session.maxFileSize

theorem admits_iff (names : Place) : s.admits names = true ↔
    (∀ name ∈ names.dropLast, name ∉ s.excludes) ∧
      ∃ glob ∈ s.includes, (Glob.ofText glob).accepts (names.getLastD "").toList = true := by
  simp only [admits, Bool.and_eq_true, Bool.not_eq_true', List.any_eq_false, List.any_eq_true, List.contains_iff_mem]

theorem choice?_isSome_iff (names : Place) : (s.choice? d names).isSome = true ↔ s.Selects d names := by
  constructor
  · intro h
    obtain ⟨p, hp⟩ := Option.isSome_iff_exists.mp h
    obtain ⟨rfl, hsize⟩ := choice?_eq_some hp
    unfold choice? at hp
    split at hp
    next hdir =>
      unfold judge at hp
      simp only at hp
      split at hp
      next => exact absurd hp (by simp)
      next hadmits =>
        obtain ⟨houtside, hincluded⟩ := (s.admits_iff names).mp (by simpa using hadmits)
        exact ⟨hdir, hincluded, houtside, hsize⟩
    next => exact absurd hp (by simp)
  · intro h
    obtain ⟨size, hsize, hle⟩ := h.size
    have hadmits : s.admits names = true := (s.admits_iff names).mpr ⟨h.outside, h.included⟩
    simp [choice?, judge, h.noDir, hadmits, hsize, hle]

variable {s d} in
/-- An entry that is selected is selected wherever the disk tells the same of it and no more is asked of it. -/
theorem Selects.of_agree {s' : Survey} {d' : Disk} {names : Place} (h : s.Selects d names)
    (hkind : d'.isDir (s'.root.descendant names) = .ok false)
    (hsize : ∀ size, d.size (s.root.descendant names) = .ok size → d'.size (s'.root.descendant names) = .ok size)
    (hincludes : ∀ glob, glob ∈ s.includes → glob ∈ s'.includes)
    (hexcludes : ∀ name, name ∈ s'.excludes → name ∈ s.excludes)
    (hlimit : s.session.maxFileSize ≤ s'.session.maxFileSize) : s'.Selects d' names := by
  obtain ⟨_, ⟨glob, hglob, haccepts⟩, houtside, size, hok, hle⟩ := h
  refine ⟨hkind, ⟨glob, hincludes glob hglob, haccepts⟩, ?_, size, hsize size hok, Int.le_trans hle hlimit⟩
  intro name hname hexcluded
  exact houtside name hname (hexcludes name hexcluded)

/-- The names of the files to audit, from the root on. -/
def chosen : List Place := (s.reached d).filter fun names => (s.choice? d names).isSome

theorem files_eq_map_chosen : s.files d = (s.chosen d).map s.root.descendant := files_eq

theorem map_relativeTo?_files :
    (s.files d).map (·.relativeTo? s.root) = (s.chosen d).map fun names => some ⟨"", names⟩ := by
  rw [files_eq_map_chosen, List.map_map]
  apply List.map_congr_left
  intro names _
  exact s.root.relativeTo?_descendant names

variable {s d}

theorem entries_of_tree (h : d.Tree s.root) : s.entries d = .ok (s.listing d) := by
  rw [listing, entries, h.walked]
  rfl

theorem mem_listing_iff (h : d.Tree s.root) {names : Place} :
    names ∈ s.listing d ↔ ∃ node, (names, node) ∈ d.below s.root := by
  simp [(listing_perm h.walked).mem_iff]

theorem listing_increasing (h : d.Tree s.root) : (s.listing d).Pairwise fun a b => a < b := by
  refine (listing_sorted.and ((listing_perm h.walked).nodup_iff.mpr h.distinct)).imp ?_
  intro a b hab
  by_contra hlt
  exact hab.2 (List.le_antisymm hab.1 hlt)

/-- A search reaches the end if of every entry it can be told whether it is a directory. -/
theorem refused?_eq_none_iff (h : d.Tree s.root) : s.refused? d = none ↔
    ∀ e ∈ d.below s.root, ∃ answer, d.isDir (s.root.descendant e.1) = .ok answer := by
  rw [refused?_of_entries (entries_of_tree h), refused_select_eq_none_iff]
  simp only [mem_listing_iff h, isExaminable_iff]
  constructor
  · intro hall e he
    exact hall e.1 ⟨e.2, he⟩
  · rintro hall names ⟨node, he⟩
    exact hall (names, node) he

/-- A search that does not reach the end has reached what comes before the first entry that cannot be examined. -/
theorem reached_of_refused (h : d.Tree s.root) {r : Disk.Refused} (hr : s.refused? d = some r) :
    ∃ e ∈ d.below s.root, d.isDir (s.root.descendant e.1) = .error r ∧
      ∀ names, names ∈ s.reached d ↔ (∃ node, (names, node) ∈ d.below s.root) ∧ names < e.1 := by
  rw [refused?_of_entries (entries_of_tree h), refused_select_eq_some_iff] at hr
  obtain ⟨before, names, after, hlisting, herror, hbefore⟩ := hr
  have hmem : names ∈ s.listing d := by simp [hlisting]
  obtain ⟨node, he⟩ := (mem_listing_iff h).mp hmem
  refine ⟨(names, node), he, herror, ?_⟩
  have hreached : s.reached d = before := by
    have hnames : s.isExaminable d names = false := isExaminable_eq_false_iff.mpr ⟨r, herror⟩
    rw [reached, hlisting, List.takeWhile_append_of_pos hbefore, List.takeWhile_cons_of_neg (by simp [hnames]),
      List.append_nil]
  have hincreasing := listing_increasing h
  rw [hlisting, List.pairwise_append, List.pairwise_cons] at hincreasing
  intro other
  rw [hreached, ← mem_listing_iff h, hlisting, List.mem_append, List.mem_cons]
  constructor
  · intro hother
    exact ⟨.inl hother, hincreasing.2.2 other hother names List.mem_cons_self⟩
  · rintro ⟨hother | rfl | hother, hlt⟩
    · exact hother
    · exact absurd hlt (List.lt_irrefl other)
    · exact absurd (List.lt_trans hlt (hincreasing.2.1.1 other hother)) (List.lt_irrefl other)

theorem mem_reached_iff (h : d.Tree s.root) (hr : s.refused? d = none) {names : Place} :
    names ∈ s.reached d ↔ ∃ node, (names, node) ∈ d.below s.root := by
  rw [reached_of_not_refused hr, mem_listing_iff h]

theorem mem_chosen_iff {names : Place} : names ∈ s.chosen d ↔ names ∈ s.reached d ∧ s.Selects d names := by
  rw [chosen, List.mem_filter, choice?_isSome_iff]

theorem chosen_increasing (h : d.Tree s.root) : (s.chosen d).Pairwise fun a b => a < b :=
  ((listing_increasing h).sublist (List.takeWhile_sublist _)).filter _

/-- Names in order are determined by which they are. -/
theorem eq_of_increasing_of_mem_iff {l l' : List Place} (hl : l.Pairwise fun a b => a < b)
    (hl' : l'.Pairwise fun a b => a < b) (hmem : ∀ names, names ∈ l ↔ names ∈ l') : l = l' := by
  have hnodup {l : List Place} (hl : l.Pairwise fun a b => a < b) : l.Nodup := by
    refine hl.imp ?_
    rintro a _ hab rfl
    exact List.lt_irrefl a hab
  apply List.Perm.eq_of_pairwise _ hl hl' ((List.perm_ext_iff_of_nodup (hnodup hl) (hnodup hl')).mpr hmem)
  intro a b _ _ hab hba
  exact absurd (List.lt_trans hab hba) (List.lt_irrefl a)

/-- What is chosen depends on the tree below the root, the globs, the excluded names and the limit alone. -/
theorem chosen_of_sameTree {s' : Survey} {d' : Disk} (h : d.Tree s.root) (h' : d'.Tree s'.root)
    (hr : s.refused? d = none) (hr' : s'.refused? d' = none)
    (hsame : d.SameTree s.root d' s'.root) (hincludes : ∀ glob, glob ∈ s.includes ↔ glob ∈ s'.includes)
    (hexcludes : ∀ name, name ∈ s.excludes ↔ name ∈ s'.excludes)
    (hlimit : s.session.maxFileSize = s'.session.maxFileSize) : s.chosen d = s'.chosen d' := by
  apply eq_of_increasing_of_mem_iff (chosen_increasing h) (chosen_increasing h')
  intro names
  rw [mem_chosen_iff, mem_chosen_iff, mem_reached_iff h hr, mem_reached_iff h' hr']
  simp only [hsame.entries]
  refine and_congr_right ?_
  rintro ⟨node, he⟩
  have hentry := (hsame.entries _).mpr he
  obtain ⟨answer, hanswer⟩ := (refused?_eq_none_iff h).mp hr _ hentry
  obtain ⟨answer', hanswer'⟩ := (refused?_eq_none_iff h').mp hr' _ he
  obtain ⟨rfl, hsize⟩ := hsame.agree h h' hentry hanswer hanswer'
  constructor
  · intro hselects
    rw [Except.ok.inj (hanswer.symm.trans hselects.noDir)] at hanswer'
    exact hselects.of_agree hanswer' (fun size => (hsize size).mp) (fun glob => (hincludes glob).mp)
      (fun name => (hexcludes name).mpr) (Int.le_of_eq hlimit)
  · intro hselects
    rw [Except.ok.inj (hanswer'.symm.trans hselects.noDir)] at hanswer
    exact hselects.of_agree hanswer (fun size => (hsize size).mpr) (fun glob => (hincludes glob).mpr)
      (fun name => (hexcludes name).mp) (Int.le_of_eq hlimit.symm)

variable (s)

theorem mem_files_iff (p : Path) :
    p ∈ s.files d ↔ ∃ names ∈ s.reached d, p = s.root.descendant names ∧ s.Selects d names := by
  rw [files_eq_map_chosen, List.mem_map]
  simp only [mem_chosen_iff, and_assoc, eq_comm (a := p), and_comm (a := s.Selects d _)]

/-- The files of a tree, if it is known which of its entries a search has reached. -/
theorem mem_files_of_reached {before : Place → Prop}
    (hreached : ∀ names, names ∈ s.reached d ↔ (∃ node, (names, node) ∈ d.below s.root) ∧ before names) (p : Path) :
    p ∈ s.files d ↔
      ∃ e ∈ d.below s.root, before e.1 ∧ p = s.root.descendant e.1 ∧ s.Selects d e.1 := by
  rw [mem_files_iff]
  constructor
  · rintro ⟨names, hnames, hp, hselects⟩
    obtain ⟨⟨node, he⟩, hbefore⟩ := (hreached names).mp hnames
    exact ⟨(names, node), he, hbefore, hp, hselects⟩
  · rintro ⟨e, he, hbefore, hp, hselects⟩
    exact ⟨e.1, (hreached e.1).mpr ⟨⟨e.2, he⟩, hbefore⟩, hp, hselects⟩

theorem descendant_mem_files_iff (h : d.Tree s.root) (hr : s.refused? d = none) (names : Place) :
    s.root.descendant names ∈ s.files d ↔ (∃ node, (names, node) ∈ d.below s.root) ∧ s.Selects d names := by
  rw [← mem_reached_iff h hr, ← mem_chosen_iff, files_eq_map_chosen]
  exact List.mem_map_of_injective fun _ _ => s.root.descendant_injective

/-- What is asked of a file of the tree. -/
theorem selects_file_iff (h : d.Tree s.root) (hr : s.refused? d = none) {names : Place} {content : Bytes}
    (he : (names, .file content) ∈ d.below s.root) :
    s.Selects d names ↔
      (∃ glob ∈ s.includes, (Glob.ofText glob).accepts (names.getLastD "").toList = true) ∧
        (∀ name ∈ names.dropLast, name ∉ s.excludes) ∧ (content.length : Int) ≤ s.session.maxFileSize := by
  obtain ⟨answer, hanswer⟩ := (refused?_eq_none_iff h).mp hr _ he
  have hsize := h.size_of_file he hanswer
  constructor
  · rintro ⟨_, hincluded, houtside, size, hok, hle⟩
    cases hsize.symm.trans hok
    exact ⟨hincluded, houtside, hle⟩
  · rintro ⟨hincluded, houtside, hle⟩
    have hdir := Disk.isDir_of_find (h.find_of_isDir he (by simp) hanswer)
    exact ⟨hdir, hincluded, houtside, _, hsize, hle⟩

/-- A name that is excluded counts against directories and not against the entry itself. -/
theorem selects_excluding_iff (names : Place) (name : String) :
    ({ s with excludes := name :: s.excludes } : Survey).Selects d (names ++ [name]) ↔
      name ∉ names ∧ s.Selects d (names ++ [name]) := by
  constructor
  · intro h
    have houtside := h.outside
    simp only [List.dropLast_concat, List.mem_cons, not_or] at houtside
    refine ⟨fun hname => (houtside name hname).1 rfl, ?_⟩
    exact h.of_agree h.noDir (fun _ hsize => hsize) (fun _ hglob => hglob) (fun _ => List.mem_cons_of_mem name)
      (Int.le_refl _)
  · intro h
    obtain ⟨hname, hdir, hincluded, houtside, hsize⟩ := h
    refine ⟨hdir, hincluded, ?_, hsize⟩
    intro other hother hexcluded
    rcases List.mem_cons.mp hexcluded with heq | hexcluded
    · rw [List.dropLast_concat, heq] at hother
      exact hname hother
    · exact houtside other hother hexcluded

theorem mem_files_excluding_iff (h : d.Tree s.root) (hr : s.refused? d = none) (names : Place) (name : String) :
    s.root.descendant (names ++ [name]) ∈ ({ s with excludes := name :: s.excludes } : Survey).files d ↔
      name ∉ names ∧ s.root.descendant (names ++ [name]) ∈ s.files d := by
  -- Whether a search reaches the end has nothing to do with what it is to leave out.
  have hr' : ({ s with excludes := name :: s.excludes } : Survey).refused? d = none :=
    (refused?_eq_none_iff (s := { s with excludes := name :: s.excludes }) h).mpr ((refused?_eq_none_iff h).mp hr)
  have hother := descendant_mem_files_iff { s with excludes := name :: s.excludes } h hr' (names ++ [name])
  rw [s.descendant_mem_files_iff h hr]
  refine hother.trans ?_
  rw [selects_excluding_iff]
  exact and_left_comm

theorem files_increasing (h : d.Tree s.root) : (s.files d).Pairwise fun p q => p.parts < q.parts := by
  rw [files_eq_map_chosen, List.pairwise_map]
  refine (chosen_increasing h).imp ?_
  intro a b hab
  exact List.append_left_lt hab

/-- To find out the files of a tree it is enough to find out which they are. -/
theorem files_eq_of_increasing (h : d.Tree s.root) (hr : s.refused? d = none) {l : List Place}
    (hl : l.Pairwise fun a b => a < b)
    (hmem : ∀ names, names ∈ l ↔ (∃ node, (names, node) ∈ d.below s.root) ∧ s.Selects d names) :
    s.files d = l.map s.root.descendant := by
  rw [files_eq_map_chosen]
  congr 1
  apply eq_of_increasing_of_mem_iff (chosen_increasing h) hl
  intro names
  rw [mem_chosen_iff, mem_reached_iff h hr, hmem]

/-- Which files of a tree are audited. They come in the order of their names, so that none comes twice. The search for
them reaches the end exactly if of every entry it can be told whether it is a directory; otherwise it stops at the first
one of which it cannot, and has come to the files before it. If it reaches the end, the files are the entries that are
no directories, have a name that is included, lie in no directory below the root that is excluded, and have a size that
does not exceed the limit. A file of the tree thus need not fear its own name, and the names of the files from the root
on are the same wherever the tree stands. -/
theorem files_of_tree (h : d.Tree s.root) :
    ((s.files d).Pairwise fun p q => p.parts < q.parts) ∧
    (s.refused? d = none ↔ ∀ e ∈ d.below s.root, ∃ answer, d.isDir (s.root.descendant e.1) = .ok answer) ∧
    (∀ r, s.refused? d = some r → ∃ e ∈ d.below s.root, d.isDir (s.root.descendant e.1) = .error r ∧
      (∀ other ∈ d.below s.root, other.1 < e.1 → ∃ answer, d.isDir (s.root.descendant other.1) = .ok answer) ∧
      ∀ p, p ∈ s.files d ↔
        ∃ other ∈ d.below s.root, other.1 < e.1 ∧ p = s.root.descendant other.1 ∧ s.Selects d other.1) ∧
    (s.refused? d = none →
      (∀ p, p ∈ s.files d ↔ ∃ e ∈ d.below s.root, p = s.root.descendant e.1 ∧ s.Selects d e.1) ∧
      (∀ names content, (names, .file content) ∈ d.below s.root →
        (s.root.descendant names ∈ s.files d ↔
          (∃ glob ∈ s.includes, (Glob.ofText glob).accepts (names.getLastD "").toList = true) ∧
            (∀ name ∈ names.dropLast, name ∉ s.excludes) ∧ (content.length : Int) ≤ s.session.maxFileSize)) ∧
      (∀ names name,
        s.root.descendant (names ++ [name]) ∈ ({ s with excludes := name :: s.excludes } : Survey).files d ↔
          name ∉ names ∧ s.root.descendant (names ++ [name]) ∈ s.files d) ∧
      ∀ (s' : Survey) (d' : Disk), d'.Tree s'.root → s'.refused? d' = none → d.SameTree s.root d' s'.root →
        (∀ glob, glob ∈ s.includes ↔ glob ∈ s'.includes) → (∀ name, name ∈ s.excludes ↔ name ∈ s'.excludes) →
        s.session.maxFileSize = s'.session.maxFileSize →
        (s.files d).map (·.relativeTo? s.root) = (s'.files d').map (·.relativeTo? s'.root)) := by
  refine ⟨s.files_increasing h, refused?_eq_none_iff h, ?_, ?_⟩
  · intro r hr
    obtain ⟨e, he, herror, hreached⟩ := reached_of_refused h hr
    refine ⟨e, he, herror, ?_, ?_⟩
    · intro other hother hlt
      have hmem := (hreached other.1).mpr ⟨⟨other.2, hother⟩, hlt⟩
      exact isExaminable_iff.mp (List.mem_takeWhile_imp hmem)
    · exact s.mem_files_of_reached hreached
  · intro hr
    refine ⟨?_, ?_, ?_, ?_⟩
    · intro p
      have hreached (names : Place) :
          names ∈ s.reached d ↔ (∃ node, (names, node) ∈ d.below s.root) ∧ True := by
        rw [mem_reached_iff h hr, and_true]
      simpa only [true_and] using s.mem_files_of_reached hreached p
    · intro names content he
      rw [s.descendant_mem_files_iff h hr, s.selects_file_iff h hr he]
      exact and_iff_right ⟨_, he⟩
    · exact s.mem_files_excluding_iff h hr
    · intro s' d' h' hr' hsame hincludes hexcludes hlimit
      rw [map_relativeTo?_files, map_relativeTo?_files,
        chosen_of_sameTree h h' hr hr' hsame hincludes hexcludes hlimit]

end Survey

namespace Disk

/-- Only links can stop a search in a planted tree. -/
theorem Plantable.refused?_eq_none {top : String} {tree : List (Place × Node)} (h : Plantable top tree)
    (hlinks : ∀ e ∈ tree, ∀ target, e.2 ≠ .link target) {s : Survey} (hs : s.root = ⟨"", [top]⟩) :
    s.refused? (planted top tree) = none := by
  have htree : (planted top tree).Tree s.root := hs ▸ h.isTree
  refine (Survey.refused?_eq_none_iff htree).mpr ?_
  rw [hs, h.below]
  intro e he
  exact ⟨e.2.isDir, h.isDir_entry he (hlinks e he)⟩

/-- Scripts in two directories and beside them, and a file with the name of a directory that is left out by default. -/
def scripts : List (Place × Node) :=
  [(["a.lua"], .file [1, 2]), (["a"], .dir), (["a", "b.lua"], .file []), (["stream"], .dir),
   (["stream", "c.lua"], .file []), (["d.lua"], .file [1, 2, 3]), (["venv"], .file [])]

variable (top : String)

theorem scripts_sameTree (htop : Plantable top scripts) {other : String} (hother : Plantable other scripts) :
    (planted top scripts).SameTree ⟨"", [top]⟩ (planted other scripts) ⟨"", [other]⟩ := by
  have hlinks (names : Place) (target : String) : (names, Node.link target) ∉ scripts := by simp [scripts]
  refine ⟨?_, ?_, ?_⟩
  · intro e
    rw [htop.below, hother.below]
  · intro names target he
    exact absurd (htop.below ▸ he) (hlinks names target)
  · intro names target he
    exact absurd (htop.below ▸ he) (hlinks names target)

end Disk

namespace Survey

/-- A survey of the scripts, wherever they stand. -/
def ofScripts (top : String) (includes : List String) : Survey :=
  .of ⟨.empty, .none, fun _ => .encoding (some "ISO-8859-1"), 2, false⟩ ⟨"", [top]⟩ includes standardExcludes false
    standardDescription

def scriptFiles (top : String) (includes : List String) : List Path :=
  (ofScripts top includes).files (.planted top Disk.scripts)

/-- The scripts under a name that is itself one of those left out, and without globs to go by. -/
theorem files_of_tree_of_excluded_root :
    (Disk.planted "stream" Disk.scripts).Tree ⟨"", ["stream"]⟩ ∧ "stream" ∈ standardExcludes ∧
    ⟨"", ["stream", "a.lua"]⟩ ∈ scriptFiles "stream" ["*.lua", "v*"] ∧
    ⟨"", ["stream", "a", "b.lua"]⟩ ∈ scriptFiles "stream" ["*.lua", "v*"] ∧
    ⟨"", ["stream", "venv"]⟩ ∈ scriptFiles "stream" ["*.lua", "v*"] ∧
    ⟨"", ["stream", "d.lua"]⟩ ∉ scriptFiles "stream" ["*.lua", "v*"] ∧
    ⟨"", ["stream", "stream", "c.lua"]⟩ ∉ scriptFiles "stream" ["*.lua", "v*"] ∧
    ⟨"", ["stream", "a.lua"]⟩ ∈ scriptFiles "stream" [] ∧ ⟨"", ["stream", "venv"]⟩ ∉ scriptFiles "stream" [] ∧
    (scriptFiles "stream" []).map (·.relativeTo? ⟨"", ["stream"]⟩) =
      (scriptFiles "work" ["*.lua"]).map (·.relativeTo? ⟨"", ["work"]⟩) := by
  have hstream : Disk.Plantable "stream" Disk.scripts :=
    ⟨by decide, by decide, by decide, by decide, by decide⟩
  have hwork : Disk.Plantable "work" Disk.scripts :=
    ⟨by decide, by decide, by decide, by decide, by decide⟩
  have hlisted {e : Place × Node} (he : e ∈ Disk.scripts) :
      e ∈ (Disk.planted "stream" Disk.scripts).below ⟨"", ["stream"]⟩ := hstream.below.symm ▸ he
  obtain ⟨_, _, _, hreached⟩ := files_of_tree (ofScripts "stream" ["*.lua", "v*"]) hstream.isTree
  have hlinks : ∀ e ∈ Disk.scripts, ∀ target, e.2 ≠ .link target := by simp [Disk.scripts]
  obtain ⟨_, hfiles, _⟩ := hreached (hstream.refused?_eq_none hlinks rfl)
  obtain ⟨_, _, _, hreached'⟩ := files_of_tree (ofScripts "stream" []) hstream.isTree
  obtain ⟨_, hfiles', _, hmoved⟩ := hreached' (hstream.refused?_eq_none hlinks rfl)
  refine ⟨hstream.isTree, by decide, ?_, ?_, ?_, ?_, ?_, ?_, ?_, ?_⟩
  · exact (hfiles ["a.lua"] [1, 2] (hlisted (by decide))).mpr (by decide)
  · exact (hfiles ["a", "b.lua"] [] (hlisted (by decide))).mpr (by decide)
  · exact (hfiles ["venv"] [] (hlisted (by decide))).mpr (by decide)
  · exact mt (hfiles ["d.lua"] [1, 2, 3] (hlisted (by decide))).mp (by decide)
  · exact mt (hfiles ["stream", "c.lua"] [] (hlisted (by decide))).mp (by decide)
  · exact (hfiles' ["a.lua"] [1, 2] (hlisted (by decide))).mpr (by decide)
  · exact mt (hfiles' ["venv"] [] (hlisted (by decide))).mp (by decide)
  · exact hmoved (ofScripts "work" ["*.lua"]) _ hwork.isTree (hwork.refused?_eq_none hlinks rfl)
      (Disk.scripts_sameTree "stream" hstream hwork) (fun _ => Iff.rfl) (fun _ => Iff.rfl) rfl

end Survey

namespace Disk

/-- A name with more letters than a name may have bytes. -/
def longName : String := String.ofList (List.replicate 300 'x')

/-- Scripts, and between them a link to a name that cannot be looked up. -/
def stuck : List (Place × Node) :=
  [(["a.lua"], .file [97]), (["b.lua"], .link longName), (["c.lua"], .file [97])]

theorem stuck_plantable : Plantable "proj" stuck := ⟨by decide, by decide, by decide, by decide, by decide⟩

theorem toList_longName : longName.toList = List.replicate 300 'x' := String.toList_ofList

theorem ofText_longName : Path.ofText longName = ⟨"", [longName]⟩ := by
  have hslash : '/' ∉ longName.toList := by
    intro h
    rw [toList_longName] at h
    exact absurd (List.eq_of_mem_replicate h) (by decide)
  have hparts : Text.pieces '/' longName = [longName] := by
    rw [Text.pieces, List.splitOn_eq_singleton hslash, List.map_singleton, String.ofList_toList]
  have hroot : Path.rootOf longName.toList = "" := by
    rw [toList_longName, List.replicate_succ]
    rfl
  have hlength : longName.length = 300 := by
    rw [← String.length_toList, toList_longName, List.length_replicate]
  have hname (short : String) (h : short.length ≠ 300) : longName ≠ short := by
    rintro rfl
    exact h hlength
  simp [Path.ofText, hparts, hroot, hname "" (by decide), hname "." (by decide)]

set_option maxRecDepth 4000 in
theorem isDir_stuck :
    (planted "proj" stuck).isDir ⟨"", ["proj", "b.lua"]⟩ = .error ⟨.nameTooLong, ⟨"", ["proj", "b.lua"]⟩⟩ := by
  have hlook (here : Place) (name : String) (hname : IsName name) :
      (planted "proj" stuck).lookUp here name = .ok () := lookUp_planted hname stuck here
  have hlink : (planted "proj" stuck).node? (["proj"] ++ ["b.lua"]) = some (.link longName) := rfl
  have hlong : (planted "proj" stuck).lookUp ["proj"] longName = .error .nameTooLong := by decide
  have hlocate : (planted "proj" stuck).locate ⟨"", ["proj", "b.lua"]⟩ = .error .nameTooLong :=
    calc (planted "proj" stuck).locate ⟨"", ["proj", "b.lua"]⟩
      _ = (planted "proj" stuck).follow 40 [] ["proj", "b.lua"] := rfl
      _ = (planted "proj" stuck).follow 40 ["proj"] ["b.lua"] :=
        follow_dir (hlook _ _ (by decide)) _ (by decide) (by decide)
      _ = (planted "proj" stuck).follow 39 ["proj"] [longName] := by
        rw [follow_link (hlook _ _ (by decide)) [] (by decide) hlink, ofText_longName]
        rfl
      _ = .error .nameTooLong := follow_refused hlong []
  exact isDir_of_refused (find_of_locate_error hlocate) rfl

end Disk

namespace Survey

/-- A search among these scripts comes to the link, whatever it looks for, and no further. -/
theorem refused?_stuck {s : Survey} (hs : s.root = ⟨"", ["proj"]⟩) :
    s.refused? (.planted "proj" Disk.stuck) = some ⟨.nameTooLong, ⟨"", ["proj", "b.lua"]⟩⟩ ∧
      ∀ names, names ∈ s.reached (.planted "proj" Disk.stuck) ↔ names = ["a.lua"] := by
  have htree : (Disk.planted "proj" Disk.stuck).Tree s.root := hs ▸ Disk.stuck_plantable.isTree
  have hbelow : (Disk.planted "proj" Disk.stuck).below s.root = Disk.stuck := hs ▸ Disk.stuck_plantable.below
  have hdir (name : String) (he : ([name], .file [97]) ∈ Disk.stuck) :
      (Disk.planted "proj" Disk.stuck).isDir ⟨"", ["proj", name]⟩ = .ok false := by
    have hentry := Disk.stuck_plantable.isDir_entry he (by simp)
    exact hentry
  obtain ⟨r, hr⟩ : ∃ r, s.refused? (.planted "proj" Disk.stuck) = some r := by
    rw [← Option.ne_none_iff_exists']
    intro hnone
    have hall := (refused?_eq_none_iff htree).mp hnone (["b.lua"], .link Disk.longName)
      (by rw [hbelow]; simp [Disk.stuck])
    obtain ⟨answer, hanswer⟩ := hall
    rw [hs] at hanswer
    exact absurd (hanswer.symm.trans Disk.isDir_stuck) (by simp)
  obtain ⟨e, he, herror, hreached⟩ := reached_of_refused htree hr
  rw [hs] at herror
  rw [hbelow] at he hreached
  -- Of all entries only the link is refused.
  have hlink : e.1 = ["b.lua"] ∧ r = ⟨.nameTooLong, ⟨"", ["proj", "b.lua"]⟩⟩ := by
    simp only [Disk.stuck, List.mem_cons, List.not_mem_nil, or_false] at he
    rcases he with rfl | rfl | rfl
    · exact absurd (herror.symm.trans (hdir "a.lua" (by decide))) (by simp)
    · exact ⟨rfl, Except.error.inj (herror.symm.trans Disk.isDir_stuck)⟩
    · exact absurd (herror.symm.trans (hdir "c.lua" (by decide))) (by simp)
  refine ⟨hlink.2 ▸ hr, ?_⟩
  intro names
  rw [hreached, hlink.1]
  constructor
  · rintro ⟨⟨node, hnode⟩, hlt⟩
    simp only [Disk.stuck, List.mem_cons, List.not_mem_nil, or_false, Prod.mk.injEq] at hnode
    rcases hnode with ⟨rfl, _⟩ | ⟨rfl, _⟩ | ⟨rfl, _⟩
    · rfl
    · exact absurd hlt (by decide)
    · exact absurd hlt (by decide)
  · rintro rfl
    exact ⟨⟨.file [97], by simp [Disk.stuck]⟩, by decide⟩

/-- A file comes after a link that leads to a name that is too long; it is one to audit and is not come to. -/
theorem files_end_at_long_link :
    (Disk.planted "proj" Disk.stuck).Tree ⟨"", ["proj"]⟩ ∧
    (ofScripts "proj" []).Selects (.planted "proj" Disk.stuck) ["c.lua"] ∧
    ⟨"", ["proj", "c.lua"]⟩ ∉ (ofScripts "proj" []).files (.planted "proj" Disk.stuck) ∧
    (ofScripts "proj" []).refused? (.planted "proj" Disk.stuck) =
      some ⟨.nameTooLong, ⟨"", ["proj", "b.lua"]⟩⟩ := by
  have hentry : (["c.lua"], .file [97]) ∈ Disk.stuck := by decide
  have hlisted : (["c.lua"], .file [97]) ∈ (Disk.planted "proj" Disk.stuck).below ⟨"", ["proj"]⟩ :=
    Disk.stuck_plantable.below.symm ▸ hentry
  have hdir := Disk.stuck_plantable.isDir_entry hentry (by simp)
  obtain ⟨hrefused, hreached⟩ := refused?_stuck (s := ofScripts "proj" []) rfl
  refine ⟨Disk.stuck_plantable.isTree, ?_, ?_, hrefused⟩
  · exact ⟨hdir, by decide, by decide, 1, Disk.stuck_plantable.isTree.size_of_file hlisted hdir, by decide⟩
  · rw [mem_files_iff]
    rintro ⟨names, hnames, hp, _⟩
    rw [(hreached names).mp hnames] at hp
    exact absurd hp (by decide)

end Survey

end ScriptAudit

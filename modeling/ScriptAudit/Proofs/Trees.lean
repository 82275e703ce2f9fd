import ScriptAudit.Proofs.Selection

namespace ScriptAudit

namespace Disk

variable {d : Disk} {root : Path} {place : Place}

theorem mem_below_iff (hplace : d.locate root = .ok place) {e : Place × Node} :
    e ∈ d.below root ↔ e.1 ≠ [] ∧ (place ++ e.1, e.2) ∈ d.entries := by
  obtain ⟨names, node⟩ := e
  simp only [below, hplace, List.mem_filterMap, Prod.exists, Option.ite_none_right_eq_some, Option.some.injEq,
    Prod.mk.injEq, Bool.and_eq_true, List.isPrefixOf_iff_prefix, decide_eq_true_eq]
  constructor
  · intro h
    obtain ⟨other, node', hmem, ⟨⟨more, rfl⟩, hlonger⟩, rfl, rfl⟩ := h
    rw [List.drop_left]
    refine ⟨?_, hmem⟩
    intro hnil
    rw [hnil, List.append_nil] at hlonger
    exact absurd hlonger (Nat.lt_irrefl _)
  · intro h
    have hpos := List.length_pos_iff.mpr h.1
    refine ⟨place ++ names, node, h.2, ⟨List.prefix_append place names, ?_⟩, List.drop_left, rfl⟩
    rw [List.length_append]
    omega

section Steps

variable {links : Nat} {here : Place} {name : String} (hlook : d.lookUp here name = .ok ()) (rest : List String)

include hlook

theorem follow_up (hname : name = "..") : d.follow links here (name :: rest) = d.follow links here.dropLast rest := by
  rw [follow.eq_def]
  simp only [hlook, if_pos hname]

theorem follow_dir (hname : name ≠ "..") (hnode : d.node? (here ++ [name]) = some .dir) :
    d.follow links here (name :: rest) = d.follow links (here ++ [name]) rest := by
  rw [follow.eq_def]
  simp only [hlook, if_neg hname, hnode]

theorem follow_file (hname : name ≠ "..") {content : Bytes} (hnode : d.node? (here ++ [name]) = some (.file content)) :
    d.follow links here [name] = .ok (here ++ [name]) := by
  rw [follow.eq_def]
  simp only [hlook, if_neg hname, hnode]
  rfl

theorem follow_link (hname : name ≠ "..") {target : String} (hnode : d.node? (here ++ [name]) = some (.link target)) :
    d.follow (links + 1) here (name :: rest) =
      d.follow links (if (Path.ofText target).root.isEmpty then here else []) ((Path.ofText target).parts ++ rest) := by
  rw [follow.eq_def]
  simp only [hlook, if_neg hname, hnode]

end Steps

theorem follow_refused {links : Nat} {here : Place} {name : String} {e : DiskError}
    (h : d.lookUp here name = .error e) (rest : List String) : d.follow links here (name :: rest) = .error e := by
  rw [follow.eq_def]
  simp only [h]

/-- Names that lead to a directory can be followed by further ones from there. -/
theorem follow_append {links : Nat} {here : Place} {names : List String} (h : d.follow links here names = .ok place)
    (hdir : d.node? place = some .dir) (more : List String) :
    ∃ left, d.follow links here (names ++ more) = d.follow left place more := by
  fun_induction follow d links here names with
  | case1 links here =>
    cases h
    exact ⟨links, rfl⟩
  | case2 => exact absurd h (by simp)
  | case3 links here rest hlook ih =>
    obtain ⟨left, hleft⟩ := ih h
    exact ⟨left, (follow_up hlook _ rfl).trans hleft⟩
  | case4 => exact absurd h (by simp)
  | case5 here name rest hlook hname links hnode ih =>
    obtain ⟨left, hleft⟩ := ih h
    exact ⟨left, (follow_dir hlook _ hname hnode).trans hleft⟩
  | case6 links here name rest hlook hname content hnode hlast =>
    cases h
    rw [hnode] at hdir
    exact absurd hdir (by simp)
  | case7 => exact absurd h (by simp)
  | case8 => exact absurd h (by simp)
  | case9 here name rest hlook hname target links hnode p ih =>
    obtain ⟨left, hleft⟩ := ih h
    refine ⟨left, ?_⟩
    rw [List.cons_append, follow_link hlook _ hname hnode, ← List.append_assoc]
    exact hleft

/-- Whether names can be looked up one in the other. -/
def lookUpAll (d : Disk) : Place → List String → Except DiskError Unit
  | _, [] => .ok ()
  | here, name :: rest =>
    match d.lookUp here name with
    | .error e => .error e
    | .ok () => d.lookUpAll (here ++ [name]) rest

/-- That a name cannot be looked up does not mean that nothing is there. -/
theorem isAbsence_of_lookUp {here : Place} {name : String} {e : DiskError} (h : d.lookUp here name = .error e) :
    e.isAbsence = false := by
  unfold lookUp at h
  split_ifs at h
  all_goals
    cases h
    rfl

theorem isAbsence_of_lookUpAll {here : Place} {names : List String} {e : DiskError}
    (h : d.lookUpAll here names = .error e) : e.isAbsence = false := by
  induction names generalizing here with
  | nil => exact absurd h (by simp [lookUpAll])
  | cons name rest ih =>
    rw [lookUpAll] at h
    split at h
    next hlook =>
      cases h
      exact isAbsence_of_lookUp hlook
    next => exact ih h

theorem lookUpAll_eq_ok (hsearch : d.unsearchable = []) {names : List String}
    (hshort : ∀ name ∈ names, name.utf8ByteSize ≤ nameLimit) (here : Place) : d.lookUpAll here names = .ok () := by
  induction names generalizing here with
  | nil => rfl
  | cons name rest ih =>
    obtain ⟨hname, hrest⟩ := List.forall_mem_cons.mp hshort
    have hlook : d.lookUp here name = .ok () := by
      rw [lookUp, hsearch, if_neg (by simp), if_neg (Nat.not_lt.mpr hname)]
    rw [lookUpAll, hlook]
    exact ih hrest _

/-- Names of directories, and at last one of something else than a link, lead where they say if they can be looked
up. -/
theorem follow_names (links : Nat) {here : Place} {names : List String} {node : Node} (hup : ".." ∉ names)
    (hdirs : ∀ n, 0 < n → n < names.length → d.node? (here ++ names.take n) = some .dir)
    (hnode : d.node? (here ++ names) = some node) (hlink : ∀ target, node ≠ .link target) :
    d.follow links here names = (d.lookUpAll here names).map fun _ => here ++ names := by
  induction names generalizing here with
  | nil =>
    rw [follow, List.append_nil]
    rfl
  | cons name rest ih =>
    rw [List.mem_cons, not_or] at hup
    have hname : name ≠ ".." := Ne.symm hup.1
    have hsplit (l : List String) : here ++ name :: l = here ++ [name] ++ l := by simp
    rw [lookUpAll]
    cases hlook : d.lookUp here name with
    | error e => exact follow_refused hlook rest
    | ok found =>
      cases rest with
      | nil =>
        cases node with
        | file content => exact follow_file hlook hname hnode
        | dir =>
          rw [follow_dir hlook [] hname hnode, follow]
          rfl
        | link target => exact absurd rfl (hlink target)
      | cons next rest =>
        have hfirst : d.node? (here ++ [name]) = some .dir := hdirs 1 Nat.one_pos (by simp)
        rw [follow_dir hlook _ hname hfirst, hsplit (next :: rest)]
        apply ih hup.2
        · intro n hpos hlt
          have hn := hdirs (n + 1) n.succ_pos (by simpa using hlt)
          rwa [List.take_succ_cons, hsplit (List.take n _)] at hn
        · rwa [hsplit (next :: rest)] at hnode

theorem find_eq_ok_iff {p : Path} {node : Node} :
    d.find p = .ok node ↔ ∃ place, d.locate p = .ok place ∧ d.node? place = some node := by
  unfold find
  cases d.locate p with
  | error e => simp [bind, Except.bind]
  | ok place =>
    cases hnode : d.node? place <;>
      simp [bind, Except.bind, pure, Except.pure, throw, throwThe, MonadExceptOf.throw, hnode]

theorem find_of_locate_error {p : Path} {e : DiskError} (h : d.locate p = .error e) : d.find p = .error e := by
  rw [find, h]
  rfl

theorem isDir_of_find {p : Path} {node : Node} (h : d.find p = .ok node) : d.isDir p = .ok node.isDir := by
  rw [isDir, passes, h]

theorem isDir_of_refused {p : Path} {e : DiskError} (h : d.find p = .error e) (he : e.isAbsence = false) :
    d.isDir p = .error ⟨e, p⟩ := by
  simp [isDir, passes, h, he]

theorem isDir_eq_true_iff {p : Path} : d.isDir p = .ok true ↔ d.find p = .ok .dir := by
  constructor
  · intro h
    unfold isDir passes at h
    split at h
    next node hfind =>
      cases node with
      | dir => exact hfind
      | file content => exact absurd h (by simp [Node.isDir])
      | link target => exact absurd h (by simp [Node.isDir])
    next =>
      split_ifs at h
      exact absurd h (by simp)
  · exact isDir_of_find

/-- A walk comes to something only below a directory. -/
theorem isDir_of_walk {names : List Place} (h : d.walk root = .ok names) (hne : names ≠ []) :
    d.isDir root = .ok true := by
  obtain ⟨answer, hanswer, h⟩ := bind_eq_ok_iff.mp h
  cases answer with
  | true => exact hanswer
  | false =>
    cases h
    exact absurd rfl hne

/-- No place below a directory is listed twice, no name leads upwards, and what has entries below it is a directory. -/
structure Nested (d : Disk) (root : Path) : Prop where
  distinct : ((d.below root).map (·.1)).Nodup
  names : ∀ e ∈ d.below root, ".." ∉ e.1
  parents : ∀ e ∈ d.below root, ∀ n, 0 < n → n < e.1.length → (e.1.take n, .dir) ∈ d.below root

/-- What the disk has below a directory is a tree, and a walk comes to all of it. -/
structure Tree (d : Disk) (root : Path) : Prop extends Nested d root where
  walked : d.walk root = .ok ((d.below root).map (·.1))

namespace Nested

variable {names : Place} {node : Node}

theorem node?_of_mem (h : d.Nested root) (hplace : d.locate root = .ok place) (he : (names, node) ∈ d.below root) :
    d.node? (place ++ names) = some node := by
  obtain ⟨hne, hmem⟩ := (mem_below_iff hplace).mp he
  rw [node?, if_neg (by simp [hne])]
  cases hlookup : d.entries.lookup (place ++ names) with
  | none =>
    have hother := List.lookup_eq_none_iff.mp hlookup _ hmem
    exact absurd hother (by simp)
  | some other =>
    obtain ⟨before, after, hentries, _⟩ := List.lookup_eq_some_iff.mp hlookup
    have hfound : (names, other) ∈ d.below root := (mem_below_iff hplace).mpr ⟨hne, by simp [hentries]⟩
    have hsame := List.inj_on_of_nodup_map h.distinct hfound he rfl
    cases hsame
    rfl

/-- Files and directories stand where their names from the root on say, whatever the path of the root, if their path can
be looked up at all. -/
theorem locate_entry (h : d.Nested root) (hplace : d.locate root = .ok place) (hdir : d.node? place = some .dir)
    (he : (names, node) ∈ d.below root) (hlink : ∀ target, node ≠ .link target) :
    d.locate (root.descendant names) =
      if pathLimit ≤ (root.descendant names).toText.utf8ByteSize then .error .nameTooLong
      else (d.lookUpAll place names).map fun _ => place ++ names := by
  have hroot : d.follow linkLimit (d.origin root) root.parts = .ok place := by
    unfold locate at hplace
    split_ifs at hplace
    exact hplace
  obtain ⟨left, hfollow⟩ := follow_append hroot hdir names
  have hdirs (n : Nat) (hpos : 0 < n) (hlt : n < names.length) : d.node? (place ++ names.take n) = some .dir :=
    h.node?_of_mem hplace (h.parents _ he n hpos hlt)
  rw [follow_names left (h.names _ he) hdirs (h.node?_of_mem hplace he) hlink] at hfollow
  exact ite_congr rfl (fun _ => rfl) fun _ => hfollow

end Nested

/-- Every name below a directory can be looked up: none is too long, nor is a path, and every directory can be
searched. -/
structure Accessible (d : Disk) (root : Path) : Prop where
  searchable : d.unsearchable = []
  short : ∀ e ∈ d.below root, (∀ name ∈ e.1, name.utf8ByteSize ≤ nameLimit) ∧
    (root.descendant e.1).toText.utf8ByteSize < pathLimit

section Accessible

variable {names : Place} {node : Node} (h : d.Nested root) (haccess : d.Accessible root)

include h haccess

theorem Accessible.locate_entry (hplace : d.locate root = .ok place) (hdir : d.node? place = some .dir)
    (he : (names, node) ∈ d.below root) (hlink : ∀ target, node ≠ .link target) :
    d.locate (root.descendant names) = .ok (place ++ names) := by
  obtain ⟨hnames, hpath⟩ := haccess.short _ he
  rw [h.locate_entry hplace hdir he hlink, if_neg (Nat.not_le.mpr hpath), lookUpAll_eq_ok haccess.searchable hnames]
  rfl

theorem Accessible.find_entry (hroot : d.isDir root = .ok true) (he : (names, node) ∈ d.below root)
    (hlink : ∀ target, node ≠ .link target) : d.find (root.descendant names) = .ok node := by
  obtain ⟨place, hplace, hdir⟩ := find_eq_ok_iff.mp (isDir_eq_true_iff.mp hroot)
  exact find_eq_ok_iff.mpr ⟨_, haccess.locate_entry h hplace hdir he hlink, h.node?_of_mem hplace he⟩

/-- A walk lists every directory that it may read. -/
theorem Accessible.lists (hroot : d.isDir root = .ok true) (hread : d.unreadable = [])
    (hnames : names = [] ∨ (names, .dir) ∈ d.below root) : d.lists (root.descendant names) = .ok true := by
  obtain ⟨place, hplace, hdir⟩ := find_eq_ok_iff.mp (isDir_eq_true_iff.mp hroot)
  rcases hnames with rfl | he
  · have hself : root.descendant [] = root := by simp [Path.descendant]
    simp [Disk.lists, hself, hplace, hread]
  · simp [Disk.lists, haccess.locate_entry h hplace hdir he (by simp), hread]

end Accessible

theorem reaches_eq_true {p : Path} {names : List String}
    (h : ∀ n < names.length, d.lists (p.descendant (names.take n)) = .ok true) : d.reaches p names = .ok true := by
  induction names generalizing p with
  | nil => rfl
  | cons name rest ih =>
    have hself : p.descendant [] = p := by simp [Path.descendant]
    have hfirst := h 0 (Nat.succ_pos _)
    rw [List.take_zero, hself] at hfirst
    rw [reaches, hfirst]
    apply ih
    intro n hlt
    have hn := h (n + 1) (Nat.succ_lt_succ hlt)
    rwa [List.take_succ_cons, Path.descendant_cons] at hn

theorem visited_eq_map {p : Path} {entries : List (Place × Node)} (h : ∀ e ∈ entries, d.visits p e = .ok true) :
    d.visited p entries = .ok (entries.map (·.1)) := by
  induction entries with
  | nil => rfl
  | cons e rest ih =>
    obtain ⟨he, hrest⟩ := List.forall_mem_cons.mp h
    rw [visited, he, ih hrest]
    rfl

/-- Where everything can be looked up and read, a walk comes to everything. -/
theorem Nested.tree (h : d.Nested root) (hroot : d.isDir root = .ok true) (haccess : d.Accessible root)
    (hread : d.unreadable = []) : d.Tree root where
  toNested := h
  walked := by
    have hvisits : ∀ e ∈ d.below root, d.visits root e = .ok true := by
      intro e he
      have hreaches : d.reaches root e.1 = .ok true := by
        apply reaches_eq_true
        intro n hlt
        apply haccess.lists h hroot hread
        rcases Nat.eq_zero_or_pos n with rfl | hpos
        · exact .inl rfl
        · exact .inr (h.parents e he n hpos hlt)
      obtain ⟨names, node⟩ := e
      rw [visits, hreaches]
      cases node with
      | dir =>
        have hlists := haccess.lists h hroot hread (.inr he)
        simp [bind, Except.bind, Node.isDir, hlists, pure, Except.pure]
      | file content => rfl
      | link target => rfl
    rw [walk, hroot]
    exact visited_eq_map hvisits

namespace Tree

variable {names : Place} {node : Node}

theorem locate_root (h : d.Tree root) (he : (names, node) ∈ d.below root) :
    ∃ place, d.locate root = .ok place ∧ d.node? place = some .dir := by
  have hne : (d.below root).map (·.1) ≠ [] := by simpa using List.ne_nil_of_mem he
  exact find_eq_ok_iff.mp (isDir_eq_true_iff.mp (isDir_of_walk h.walked hne))

/-- What is no link is found by its names from the root on, or else its path cannot be looked up. -/
theorem find_entry (h : d.Tree root) (he : (names, node) ∈ d.below root) (hlink : ∀ target, node ≠ .link target) :
    d.find (root.descendant names) = .ok node ∨
      ∃ e, d.find (root.descendant names) = .error e ∧ e.isAbsence = false := by
  obtain ⟨place, hplace, hdir⟩ := h.locate_root he
  have hlocate := h.locate_entry hplace hdir he hlink
  split_ifs at hlocate
  · exact .inr ⟨.nameTooLong, find_of_locate_error hlocate, rfl⟩
  cases hlook : d.lookUpAll place names with
  | ok found =>
    rw [hlook] at hlocate
    exact .inl (find_eq_ok_iff.mpr ⟨place ++ names, hlocate, h.node?_of_mem hplace he⟩)
  | error e =>
    rw [hlook] at hlocate
    exact .inr ⟨e, find_of_locate_error hlocate, isAbsence_of_lookUpAll hlook⟩

/-- If it can be told whether an entry is a directory, it is found. -/
theorem find_of_isDir (h : d.Tree root) (he : (names, node) ∈ d.below root) (hlink : ∀ target, node ≠ .link target)
    {answer : Bool} (hanswer : d.isDir (root.descendant names) = .ok answer) :
    d.find (root.descendant names) = .ok node := by
  refine (h.find_entry he hlink).resolve_right ?_
  rintro ⟨e, herror, habsence⟩
  rw [isDir_of_refused herror habsence] at hanswer
  exact absurd hanswer (by simp)

theorem size_of_file (h : d.Tree root) {content : Bytes} (he : (names, .file content) ∈ d.below root) {answer : Bool}
    (hanswer : d.isDir (root.descendant names) = .ok answer) :
    d.size (root.descendant names) = .ok content.length := by
  rw [size, h.find_of_isDir he (by simp) hanswer]
  rfl

end Tree

/-- Two trees have the same names and the same files and directories under them, and their links come to the same. -/
structure SameTree (d : Disk) (root : Path) (d' : Disk) (root' : Path) : Prop where
  entries : ∀ e, e ∈ d.below root ↔ e ∈ d'.below root'
  kinds : ∀ names target, (names, .link target) ∈ d.below root →
    ∀ answer, d.isDir (root.descendant names) = .ok answer ↔ d'.isDir (root'.descendant names) = .ok answer
  sizes : ∀ names target, (names, .link target) ∈ d.below root →
    ∀ size, d.size (root.descendant names) = .ok size ↔ d'.size (root'.descendant names) = .ok size

/-- Of every entry that both disks can tell something of they tell the same. -/
theorem SameTree.agree {d' : Disk} {root' : Path} (hsame : d.SameTree root d' root') (h : d.Tree root)
    (h' : d'.Tree root') {names : Place} {node : Node} (he : (names, node) ∈ d.below root) {answer answer' : Bool}
    (hanswer : d.isDir (root.descendant names) = .ok answer)
    (hanswer' : d'.isDir (root'.descendant names) = .ok answer') :
    answer = answer' ∧
      ∀ size, d.size (root.descendant names) = .ok size ↔ d'.size (root'.descendant names) = .ok size := by
  by_cases hlink : ∃ target, node = .link target
  · obtain ⟨target, rfl⟩ := hlink
    refine ⟨?_, hsame.sizes names target he⟩
    rw [(hsame.kinds names target he answer).mp hanswer] at hanswer'
    exact Except.ok.inj hanswer'
  · have hnode : ∀ target, node ≠ .link target := by simpa using hlink
    have hfind := h.find_of_isDir he hnode hanswer
    have hfind' := h'.find_of_isDir ((hsame.entries _).mp he) hnode hanswer'
    rw [isDir_of_find hfind] at hanswer
    rw [isDir_of_find hfind'] at hanswer'
    refine ⟨Except.ok.inj (hanswer.symm.trans hanswer'), ?_⟩
    simp only [size, hfind, hfind', implies_true]

/-- A disk with one directory at its top and a tree in it. -/
def planted (top : String) (tree : List (Place × Node)) : Disk where
  here := []
  entries := ([top], .dir) :: tree.map fun e => (top :: e.1, e.2)

/-- A name that can be looked up. -/
def IsName (name : String) : Prop := name ≠ ".." ∧ name.utf8ByteSize ≤ nameLimit

instance (name : String) : Decidable (IsName name) := inferInstanceAs (Decidable (_ ∧ _))

/-- A name alone is no long path. -/
theorem IsName.short_path {name : String} (h : IsName name) :
    ¬pathLimit ≤ (⟨"", [name]⟩ : Path).toText.utf8ByteSize := by
  have hle := h.2
  have htext : (⟨"", [name]⟩ : Path).toText = name := by simp [Path.toText]
  rw [htext]
  unfold nameLimit at hle
  unfold pathLimit
  omega

/-- A disk with one file. -/
def holding (name : String) (content : Bytes) : Disk where
  here := []
  entries := [([name], .file content)]

theorem locate_holding {name : String} (hname : IsName name) (content : Bytes) :
    (holding name content).locate ⟨"", [name]⟩ = .ok [name] := by
  have hnode : (holding name content).node? ([] ++ [name]) = some (.file content) := by
    simp [holding, node?]
  have hlook : (holding name content).lookUp [] name = .ok () := by
    rw [lookUp, if_neg (by simp [holding]), if_neg (Nat.not_lt.mpr hname.2)]
  rw [locate, if_neg hname.short_path]
  exact follow_file hlook hname.1 hnode

theorem find_holding {name : String} (hname : IsName name) (content : Bytes) :
    (holding name content).find ⟨"", [name]⟩ = .ok (.file content) := by
  have hnode : (holding name content).node? [name] = some (.file content) := by
    simp [holding, node?]
  exact find_eq_ok_iff.mpr ⟨_, locate_holding hname content, hnode⟩

theorem read_holding {name : String} (hname : IsName name) (content : Bytes) :
    (holding name content).read ⟨"", [name]⟩ = .ok content := by
  have hopen : (holding name content).unreadable = [] := rfl
  simp [read, locate_holding hname content, find_holding hname content, hopen, bind, Except.bind, pure, Except.pure]

theorem lookUp_planted {top name : String} (hname : IsName name) (tree : List (Place × Node)) (here : Place) :
    (planted top tree).lookUp here name = .ok () := by
  rw [lookUp, if_neg (by simp [planted]), if_neg (Nat.not_lt.mpr hname.2)]

theorem locate_planted {top : String} (htop : IsName top) (tree : List (Place × Node)) :
    (planted top tree).locate ⟨"", [top]⟩ = .ok [top] := by
  have hnode : (planted top tree).node? ([] ++ [top]) = some .dir := by
    simp [planted, node?]
  have hlook : (planted top tree).lookUp [] top = .ok () := lookUp_planted htop tree []
  calc (planted top tree).locate ⟨"", [top]⟩ = (planted top tree).follow linkLimit [] [top] := by
        rw [locate, if_neg htop.short_path]
        rfl
    _ = (planted top tree).follow linkLimit [top] [] := follow_dir hlook [] htop.1 hnode
    _ = .ok [top] := by rw [follow]

theorem isDir_planted {top : String} (htop : IsName top) (tree : List (Place × Node)) :
    (planted top tree).isDir ⟨"", [top]⟩ = .ok true :=
  isDir_eq_true_iff.mpr (find_eq_ok_iff.mpr ⟨[top], locate_planted htop tree, by simp [planted, node?]⟩)

theorem below_planted {top : String} (htop : IsName top) {tree : List (Place × Node)}
    (htree : ∀ e ∈ tree, e.1 ≠ []) : (planted top tree).below ⟨"", [top]⟩ = tree := by
  have hentry (e : Place × Node) (he : e ∈ tree) : 0 < e.1.length := List.length_pos_iff.mpr (htree e he)
  rw [below, locate_planted htop tree]
  refine (List.filterMap_cons_none (by simp)).trans ?_
  rw [List.filterMap_map]
  calc tree.filterMap _ = tree.filterMap some := by
        apply List.filterMap_congr
        intro e he
        simp [hentry e he]
    _ = tree := List.filterMap_some

/-- The entries of a tree that can be planted below a name: each has a name, has its directories with it, and can be
looked up. -/
structure Plantable (top : String) (tree : List (Place × Node)) : Prop where
  root : IsName top
  distinct : (tree.map (·.1)).Nodup
  names : ∀ e ∈ tree, e.1 ≠ [] ∧ ∀ name ∈ e.1, IsName name
  parents : ∀ e ∈ tree, ∀ n < e.1.length, n = 0 ∨ (e.1.take n, .dir) ∈ tree
  short : ∀ e ∈ tree, (⟨"", top :: e.1⟩ : Path).toText.utf8ByteSize < pathLimit

namespace Plantable

variable {top : String} {tree : List (Place × Node)}

theorem below (h : Plantable top tree) : (planted top tree).below ⟨"", [top]⟩ = tree :=
  below_planted h.root fun e he => (h.names e he).1

theorem nested (h : Plantable top tree) : (planted top tree).Nested ⟨"", [top]⟩ := by
  refine ⟨?_, ?_, ?_⟩
  · rw [h.below]
    exact h.distinct
  · rw [h.below]
    exact fun e he hup => ((h.names e he).2 _ hup).1 rfl
  · rw [h.below]
    intro e he n hpos hlt
    exact (h.parents e he n hlt).resolve_left (Nat.ne_of_gt hpos)

theorem accessible (h : Plantable top tree) : (planted top tree).Accessible ⟨"", [top]⟩ where
  searchable := rfl
  short := by
    rw [h.below]
    exact fun e he => ⟨fun name hname => ((h.names e he).2 name hname).2, h.short e he⟩

theorem isTree (h : Plantable top tree) : (planted top tree).Tree ⟨"", [top]⟩ :=
  h.nested.tree (isDir_planted h.root tree) h.accessible rfl

theorem find_entry (h : Plantable top tree) {names : Place} {node : Node} (he : (names, node) ∈ tree)
    (hlink : ∀ target, node ≠ .link target) : (planted top tree).find ⟨"", top :: names⟩ = .ok node := by
  have hentry : (names, node) ∈ (planted top tree).below ⟨"", [top]⟩ := h.below.symm ▸ he
  have hfind := h.accessible.find_entry h.nested (isDir_planted h.root tree) hentry hlink
  exact hfind

theorem isDir_entry (h : Plantable top tree) {names : Place} {node : Node} (he : (names, node) ∈ tree)
    (hlink : ∀ target, node ≠ .link target) : (planted top tree).isDir ⟨"", top :: names⟩ = .ok node.isDir :=
  isDir_of_find (h.find_entry he hlink)

theorem read_file (h : Plantable top tree) {names : Place} {content : Bytes} (he : (names, .file content) ∈ tree) :
    (planted top tree).read ⟨"", top :: names⟩ = .ok content := by
  have hfind := h.find_entry he (by simp)
  obtain ⟨place, hplace, _⟩ := find_eq_ok_iff.mp hfind
  rw [read, hplace, hfind]
  rfl

end Plantable

end Disk

end ScriptAudit

import Mathlib.Data.Prod.Lex
import ScriptAudit.Proofs.Checks

namespace ScriptAudit

/-- A check that tells the fault of the first spot that has one. The spots are ordered by `before`. -/
structure TellsFirst {κ ε α : Type} (before : κ → κ → Prop) (fault? : κ → Option ε) (result : Except ε α) : Prop where
  ok : ∀ a, result = .ok a → ∀ spot, fault? spot = none
  error : ∀ e, result = .error e → ∃ spot, fault? spot = some e ∧ ∀ earlier, before earlier spot → fault? earlier = none

namespace TellsFirst

variable {κ ε α : Type} {before : κ → κ → Prop} {fault? : κ → Option ε} {result : Except ε α}

/-- Of two spots that have a fault, at most one is the first. -/
theorem error_iff (h : TellsFirst before fault? result)
    (htotal : ∀ a b, before a b ∨ a = b ∨ before b a) {e : ε} :
    result = .error e ↔ ∃ spot, fault? spot = some e ∧ ∀ earlier, before earlier spot → fault? earlier = none := by
  constructor
  · exact h.error e
  · rintro ⟨spot, hspot, hfirst⟩
    cases hresult : result with
    | ok a =>
      rw [h.ok a hresult spot] at hspot
      exact absurd hspot (by simp)
    | error e' =>
      obtain ⟨spot', hspot', hfirst'⟩ := h.error e' hresult
      rcases htotal spot spot' with hlt | rfl | hlt
      · rw [hfirst' spot hlt] at hspot
        exact absurd hspot (by simp)
      · rw [hspot] at hspot'
        rw [Option.some.inj hspot']
      · rw [hfirst spot' hlt] at hspot'
        exact absurd hspot' (by simp)

end TellsFirst

theorem TellsFirst.return {κ ε α β : Type} {before : κ → κ → Prop} {fault? : κ → Option ε} {result : Except ε α}
    (h : TellsFirst before fault? result) (g : α → β) :
    TellsFirst before fault? (do return g (← result)) := by
  cases result with
  | ok a => exact ⟨fun _ _ => h.ok a rfl, fun e he => absurd he (by simp [bind, Except.bind, pure, Except.pure])⟩
  | error e =>
    refine ⟨fun b hb => absurd hb (by simp [bind, Except.bind]), ?_⟩
    intro e' he'
    exact h.error e' (congrArg Except.error (Except.error.inj he'))

/-- The order of spots in the elements of a list: the element counts first. -/
abbrev InList {κ : Type} (before : κ → κ → Prop) : Nat × κ → Nat × κ → Prop := Prod.Lex (· < ·) before

theorem InList.total {κ : Type} {before : κ → κ → Prop} (h : ∀ a b, before a b ∨ a = b ∨ before b a)
    (spot other : Nat × κ) : InList before spot other ∨ spot = other ∨ InList before other spot := by
  obtain ⟨i, a⟩ := spot
  obtain ⟨j, b⟩ := other
  rcases Nat.lt_trichotomy i j with hlt | rfl | hlt
  · exact .inl (.left _ _ hlt)
  · rcases h a b with hab | rfl | hba
    · exact .inl (.right _ hab)
    · exact .inr (.inl rfl)
    · exact .inr (.inr (.right _ hba))
  · exact .inr (.inr (.left _ _ hlt))

/-- What is wrong at a spot of an element. -/
def elementFault? {α κ ε : Type} (fault? : α → κ → Option ε) (xs : List α) (spot : Nat × κ) : Option ε :=
  xs[spot.1]?.bind (fault? · spot.2)

theorem TellsFirst.mapM {α β κ ε : Type} {before : κ → κ → Prop} {fault? : α → κ → Option ε} {f : α → Except ε β}
    {xs : List α} (h : ∀ x ∈ xs, TellsFirst before (fault? x) (f x)) :
    TellsFirst (InList before) (elementFault? fault? xs) (xs.mapM f) where
  ok := by
    intro ys hys spot
    rw [elementFault?, Option.bind_eq_none_iff]
    intro x hx
    have hmem := List.mem_of_getElem? hx
    obtain ⟨y, hy⟩ := exists_mapM_eq_ok_iff.mp ⟨ys, hys⟩ x hmem
    exact (h x hmem).ok y hy spot.2
  error := by
    intro e he
    obtain ⟨i, x, hx, hfails, hbefore⟩ := mapM_eq_error he
    obtain ⟨spot, hspot, hfirst⟩ := (h x (List.mem_of_getElem? hx)).error e hfails
    refine ⟨(i, spot), ?_, ?_⟩
    · rw [elementFault?, hx]
      exact hspot
    · rintro ⟨j, earlier⟩ hlt
      rw [elementFault?, Option.bind_eq_none_iff]
      intro y hy
      rcases Prod.lex_def.mp hlt with hj | ⟨hj, hearlier⟩
      · obtain ⟨b, hb⟩ := hbefore j hj y hy
        exact (h y (List.mem_of_getElem? hy)).ok b hb earlier
      · obtain rfl : j = i := hj
        rw [hx] at hy
        rw [← Option.some.inj hy]
        exact hfirst earlier hearlier

/-- What a definition is checked for. -/
inductive Aspect where
  | kind
  | title
  | description
  | suggestion
  | severity
  | pattern
  deriving DecidableEq

/-- The order in which the checks are made. -/
def Aspect.rank : Aspect → Nat
  | kind => 0
  | title => 1
  | description => 2
  | suggestion => 3
  | severity => 4
  | pattern => 5

def Aspect.Before (a b : Aspect) : Prop := a.rank < b.rank

theorem Aspect.before_total (a b : Aspect) : a.Before b ∨ a = b ∨ b.Before a := by
  unfold Before
  cases a <;> cases b <;> decide

namespace Draft

variable (d : Draft) (category : String)

/-- An error of a draft, with the place it is about. -/
def blame (problem : CatalogProblem) : CatalogFailure := .invalid ⟨some category, d.label, problem⟩

def textFault? (name : String) (v : Value) : Option CatalogFailure :=
  if (nonBlank? v).isSome then none else some (d.blame category (.emptyField name))

def severityFault? : Option CatalogFailure :=
  match Severity.ofValue d.severity with
  | .ok _ => none
  | .error unknown => some (d.blame category (.severity unknown))

def patternFault? : Option CatalogFailure :=
  match d.pattern with
  | .ready _ => none
  | .value v =>
    match Pattern.ofValue v d.flags with
    | .ok _ => none
    | .error (.problem problem) => some (d.blame category (.pattern problem))
    | .error (.breakdown breakdown) => some (.broken breakdown)

end Draft

/-- What is wrong with one aspect of a definition, whatever else is wrong with it. -/
def Definition.fault? (category : String) : Definition → Aspect → Option CatalogFailure
  | .other kind, .kind => some (.invalid ⟨some category, none, .notARecord kind⟩)
  | .draft d, .title => d.textFault? category "title" d.title
  | .draft d, .description => d.textFault? category "description" d.description
  | .draft d, .suggestion => d.textFault? category "suggestion" d.suggestion
  | .draft d, .severity => d.severityFault? category
  | .draft d, .pattern => d.patternFault? category
  | _, _ => none

/-- Of two checks the first comes first, if the second does not depend on what it gives. -/
theorem errorOf?_bind {α β ε : Type} {x : Except ε α} {f : α → Except ε β} {o : Option ε}
    (h : ∀ a, errorOf? (f a) = o) : errorOf? (x >>= f) = (errorOf? x).or o := by
  cases x with
  | error e => rfl
  | ok a => exact h a

theorem TellsFirst.of_findSome? {κ ε α : Type} {rank : κ → Nat} {fault? : κ → Option ε} {result : Except ε α}
    {spots : List κ} (hsorted : spots.Pairwise fun a b => rank a < rank b) (hall : ∀ spot, spot ∈ spots)
    (h : errorOf? result = spots.findSome? fault?) : TellsFirst (fun a b => rank a < rank b) fault? result where
  ok := by
    rintro a rfl spot
    exact List.findSome?_eq_none_iff.mp h.symm spot (hall spot)
  error := by
    rintro e rfl
    obtain ⟨front, spot, back, rfl, hspot, hfront⟩ := List.findSome?_eq_some_iff.mp h.symm
    refine ⟨spot, hspot, ?_⟩
    intro earlier hlt
    rcases List.mem_append.mp (hall earlier) with hmem | hmem
    · exact hfront earlier hmem
    · rw [List.pairwise_append, List.pairwise_cons] at hsorted
      rcases List.mem_cons.mp hmem with rfl | hmem
      · omega
      · have hgt := hsorted.2.1.1 earlier hmem
        omega

namespace Draft

variable (d : Draft) (category : String)

theorem errorOf?_textField (name : String) (v : Value) :
    errorOf? (d.textField category name v) = d.textFault? category name v := by
  unfold textField textFault?
  cases nonBlank? v <;> rfl

theorem errorOf?_detector : errorOf? (d.detector category) = d.patternFault? category := by
  unfold detector patternFault?
  cases d.pattern with
  | ready detector => rfl
  | value v =>
    dsimp only
    cases Pattern.ofValue v d.flags with
    | ok pattern => rfl
    | error refusal => cases refusal <;> rfl

theorem errorOf?_check :
    errorOf? (d.check category) =
      (d.textFault? category "title" d.title).or ((d.textFault? category "description" d.description).or
        ((d.textFault? category "suggestion" d.suggestion).or ((d.severityFault? category).or
          (d.patternFault? category)))) := by
  rw [check, errorOf?_bind, errorOf?_textField]
  intro title
  rw [errorOf?_bind, errorOf?_textField]
  intro description
  rw [errorOf?_bind, errorOf?_textField]
  intro suggestion
  unfold severityFault?
  cases Severity.ofValue d.severity with
  | error unknown => rfl
  | ok severity =>
    dsimp only
    rw [errorOf?_bind (o := none), errorOf?_detector, Option.or_none, Option.none_or]
    intro detector
    rfl

end Draft

theorem Definition.check_tellsFirst (category : String) (definition : Definition) :
    TellsFirst Aspect.Before (definition.fault? category) (definition.check category) := by
  have hsorted : [Aspect.kind, .title, .description, .suggestion, .severity, .pattern].Pairwise
      fun a b => a.rank < b.rank := by decide
  refine TellsFirst.of_findSome? hsorted (fun aspect => by cases aspect <;> decide) ?_
  cases definition with
  | other kind => rfl
  | draft d =>
    rw [check, d.errorOf?_check category]
    have hcons (aspect : Aspect) (rest : List Aspect) : (aspect :: rest).findSome? (fault? category (.draft d)) =
        (fault? category (.draft d) aspect).or (rest.findSome? (fault? category (.draft d))) := by
      rw [List.findSome?_cons]
      cases fault? category (.draft d) aspect <;> rfl
    simp only [hcons, List.findSome?_nil, Option.or_none]
    rfl

/-- Where something can be wrong with an entry. -/
inductive EntryPart where
  | name
  | list
  | rule (spot : Nat × Aspect)

/-- The name comes first, then the list, then the definitions. -/
inductive EntryPart.Before : EntryPart → EntryPart → Prop
  | name_list : Before .name .list
  | name_rule (spot : Nat × Aspect) : Before .name (.rule spot)
  | list_rule (spot : Nat × Aspect) : Before .list (.rule spot)
  | rule {earlier later : Nat × Aspect} (h : InList Aspect.Before earlier later) : Before (.rule earlier) (.rule later)

theorem EntryPart.before_total (a b : EntryPart) : a.Before b ∨ a = b ∨ b.Before a := by
  cases a with
  | name =>
    cases b with
    | name => exact .inr (.inl rfl)
    | list => exact .inl .name_list
    | rule spot => exact .inl (.name_rule spot)
  | list =>
    cases b with
    | name => exact .inr (.inr .name_list)
    | list => exact .inr (.inl rfl)
    | rule spot => exact .inl (.list_rule spot)
  | rule spot =>
    cases b with
    | name => exact .inr (.inr (.name_rule spot))
    | list => exact .inr (.inr (.list_rule spot))
    | rule other =>
      rcases InList.total Aspect.before_total spot other with h | rfl | h
      · exact .inl (.rule h)
      · exact .inr (.inl rfl)
      · exact .inr (.inr (.rule h))

/-- What is wrong with one part of an entry, whatever else is wrong with it. -/
def CatalogEntry.fault? (e : CatalogEntry) : EntryPart → Option CatalogFailure
  | .name => if (nonBlank? e.name).isSome then none else some (.invalid ⟨none, none, .categoryName e.name⟩)
  | .list =>
    match e.name, e.definitions with
    | .text name, .other => some (.invalid ⟨some name, none, .notAList⟩)
    | _, _ => none
  | .rule spot =>
    match e.name, e.definitions with
    | .text name, .list definitions => elementFault? (Definition.fault? name) definitions spot
    | _, _ => none

theorem CatalogEntry.check_tellsFirst (e : CatalogEntry) : TellsFirst EntryPart.Before e.fault? e.check := by
  obtain ⟨name, definitions⟩ := e
  cases hname : nonBlank? name with
  | none =>
    have hcheck : CatalogEntry.check ⟨name, definitions⟩ = .error (.invalid ⟨none, none, .categoryName name⟩) := by
      simp only [check, hname]
    rw [hcheck]
    refine ⟨fun category h => absurd h (by simp), fun failure h => ⟨.name, ?_, ?_⟩⟩
    · simpa [fault?, hname] using h
    · intro earlier hbefore
      cases hbefore
  | some text =>
    obtain rfl := text_of_nonBlank? hname
    have hnamed : fault? ⟨.text text, definitions⟩ .name = none := by simp [fault?, hname]
    cases definitions with
    | other =>
      have hcheck : CatalogEntry.check ⟨.text text, .other⟩ = .error (.invalid ⟨some text, none, .notAList⟩) := by
        simp only [check, hname]
      rw [hcheck]
      refine ⟨fun category h => absurd h (by simp), fun failure h => ⟨.list, ?_, ?_⟩⟩
      · simpa [fault?] using h
      · intro earlier hbefore
        cases hbefore
        exact hnamed
    | list definitions =>
      have hrules : TellsFirst (InList Aspect.Before) (elementFault? (Definition.fault? text) definitions)
          (definitions.mapM (·.check text)) := .mapM fun definition _ => definition.check_tellsFirst text
      have hcheck : CatalogEntry.check ⟨.text text, .list definitions⟩ =
          (do return ⟨text, ← definitions.mapM (·.check text)⟩) := by
        simp only [check, hname]
      have hwhole := hrules.return (Category.mk text)
      rw [hcheck]
      constructor
      · intro category hok spot
        cases spot with
        | name => exact hnamed
        | list => rfl
        | rule spot => exact hwhole.ok category hok spot
      · intro failure herror
        obtain ⟨spot, hspot, hfirst⟩ := hwhole.error failure herror
        refine ⟨.rule spot, hspot, ?_⟩
        intro earlier hbefore
        cases hbefore with
        | name_rule => exact hnamed
        | list_rule => rfl
        | rule hlt => exact hfirst _ hlt

namespace Catalog

/-- What is wrong at a spot, which is an entry and a part of it. -/
def faultAt? (entries : List CatalogEntry) (spot : Nat × EntryPart) : Option CatalogFailure :=
  elementFault? CatalogEntry.fault? entries spot

theorem ofEntries_tellsFirst (entries : List CatalogEntry) :
    TellsFirst (InList EntryPart.Before) (faultAt? entries) (ofEntries entries) :=
  (TellsFirst.mapM fun e _ => e.check_tellsFirst).return Catalog.mk

theorem exists_check_eq_ok_iff {e : CatalogEntry} :
    (∃ category, e.check = .ok category) ↔ ∃ name definitions,
      e.name = .text name ∧ Text.isAllBlank name = false ∧ e.definitions = .list definitions ∧
      ∀ definition ∈ definitions, ∃ rule, definition.check name = .ok rule := by
  simp only [CatalogEntry.check_eq_ok_iff, ← exists_mapM_eq_ok_iff, mapM_eq_ok_iff]
  constructor
  · rintro ⟨category, hname, definitions, hdefinitions, hrules⟩
    have htext := text_of_nonBlank? hname
    have hblank : Text.isAllBlank category.name = false := by simpa [htext, nonBlank?] using hname
    exact ⟨category.name, definitions, htext, hblank, hdefinitions, category.rules, hrules⟩
  · rintro ⟨name, definitions, htext, hblank, hdefinitions, rules, hrules⟩
    exact ⟨⟨name, rules⟩, by simp [htext, nonBlank?, hblank], definitions, hdefinitions, hrules⟩

theorem exists_ofEntries_eq_ok_iff {entries : List CatalogEntry} :
    (∃ c, ofEntries entries = .ok c) ↔ ∀ e ∈ entries, ∃ category, e.check = .ok category := by
  rw [← exists_mapM_eq_ok_iff]
  simp only [ofEntries_eq_ok_iff, mapM_eq_ok_iff]
  exact ⟨fun ⟨c, hc⟩ => ⟨c.categories, hc⟩, fun ⟨categories, h⟩ => ⟨⟨categories⟩, h⟩⟩

/-- Of two spots one comes first. -/
theorem before_total (spot other : Nat × EntryPart) :
    InList EntryPart.Before spot other ∨ spot = other ∨ InList EntryPart.Before other spot :=
  InList.total EntryPart.before_total spot other

/-- Entries make a catalog exactly if each name has something else than white space in it, each name comes with a list,
and each definition passes its check. The catalog then has the names and, under each, the rules of the definitions in
their order. Otherwise the failure is the one of the first spot at which something is wrong: entries come in their
order, in an entry the name, the list and the definitions in their order, and in a definition its kind, the title, the
description, the suggestion, the severity and the pattern. -/
theorem ofEntries_tells_first_fault (entries : List CatalogEntry) :
    ((∃ c, ofEntries entries = .ok c) ↔ ∀ e ∈ entries, ∃ name definitions,
      e.name = .text name ∧ Text.isAllBlank name = false ∧ e.definitions = .list definitions ∧
      ∀ definition ∈ definitions, ∃ rule, definition.check name = .ok rule) ∧
    (∀ c, ofEntries entries = .ok c → entries.map (·.name) = c.names.map .text ∧
      List.Forall₂ (fun e category => ∃ definitions, e.definitions = .list definitions ∧
        List.Forall₂ (fun definition rule => definition.check category.name = .ok rule) definitions category.rules)
        entries c.categories) ∧
    ∀ failure, ofEntries entries = .error failure ↔ ∃ spot, faultAt? entries spot = some failure ∧
      ∀ earlier, InList EntryPart.Before earlier spot → faultAt? entries earlier = none := by
  refine ⟨?_, ?_, fun failure => (ofEntries_tellsFirst entries).error_iff before_total⟩
  · simp only [exists_ofEntries_eq_ok_iff, exists_check_eq_ok_iff]
  · intro c hc
    refine ⟨names_ofEntries hc, (ofEntries_eq_ok_iff.mp hc).imp ?_⟩
    intro e category hcheck
    exact (CatalogEntry.check_eq_ok_iff.mp hcheck).2

end Catalog

end ScriptAudit

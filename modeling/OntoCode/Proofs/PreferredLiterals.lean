/-
Which literal describes a resource.

The predicates are tried one after the other, and the first one that has a literal decides: a
literal in the preferred language is no reason to go on to the next.  Among the objects of one
predicate a single pass is enough.  It keeps the first literal it comes by, and stops at a literal
in the language; what is no literal is passed over.

`Kept` says what the pass knows after some of the objects: it has come by no literal in the language
yet, and it keeps the first literal of all.  Each object either keeps this or ends the pass, so that
the invariant gives what the whole pass finds.
-/
import OntoCode.Ontology.Labels
import OntoCode.Proofs.Statements

namespace OntoCode.Ontology

open OntoCode.Rdf

/-- A literal is tagged with the preferred language, if there is one. -/
def IsIn (language : Option String) (l : Literal) : Prop := language ≠ none ∧ l.language = language

instance (language : Option String) (l : Literal) : Decidable (IsIn language l) :=
  inferInstanceAs (Decidable (_ ∧ _))

/-- A literal is the one to be chosen among objects in their order. -/
inductive Chosen (language : Option String) (objects : List Term) : Literal → Prop
  /-- It is the first one in the language. -/
  | tagged {earlier later : List Term} {l : Literal}
      (hobjects : objects = earlier ++ .literal l :: later) (hl : IsIn language l)
      (hearlier : ∀ m, .literal m ∈ earlier → ¬ IsIn language m) : Chosen language objects l
  /-- None is in the language, and it is the first one at all. -/
  | first {earlier later : List Term} {l : Literal}
      (hobjects : objects = earlier ++ .literal l :: later)
      (hearlier : ∀ m, .literal m ∉ earlier)
      (hnone : ∀ m, .literal m ∈ objects → ¬ IsIn language m) : Chosen language objects l

theorem Chosen.mem {language : Option String} {objects : List Term} {l : Literal}
    (h : Chosen language objects l) : .literal l ∈ objects := by
  cases h with
  | tagged hobjects _ _ | first hobjects _ _ =>
      rw [hobjects]
      exact List.mem_append_right _ List.mem_cons_self

/-- A subject has a literal for a predicate. -/
def HasLiteral (g : Graph) (subject : Term) (predicate : Iri) : Prop :=
  ∃ l, Term.literal l ∈ g.objects subject predicate

/-! ### One pass over the objects -/

/-- The pass over the objects that are left, with the literal that is kept of those before. -/
def search (language : Option String) (kept : Option Literal) : List Term → Option Literal
  | [] => kept
  | .literal l :: rest =>
    if IsIn language l then some l else search language (kept.or (some l)) rest
  | _ :: rest => search language kept rest

theorem literal?_eq_none_of_other {t : Term} (h : ∀ l, t = .literal l → False) :
    t.literal? = none :=
  Option.eq_none_iff_forall_ne_some.mpr fun l hl => h l (Term.literal?_eq_some.mp hl)

/-- What is known of a pass that has not come by a literal in the language. -/
structure Kept (language : Option String) (seen : List Term) (kept : Option Literal) : Prop where
  others : ∀ m, .literal m ∈ seen → ¬ IsIn language m
  first : seen.findSome? Term.literal? = kept

namespace Kept

variable {language : Option String} {seen rest : List Term} {kept : Option Literal} {l : Literal}

theorem start : Kept language [] none := ⟨fun _ hm => absurd hm List.not_mem_nil, rfl⟩

/-- A literal in another language is kept if it is the first one. -/
theorem literal (h : Kept language seen kept) (hl : ¬ IsIn language l) :
    Kept language (seen ++ [.literal l]) (kept.or (some l)) := by
  constructor
  · intro m hm
    rcases List.mem_append.mp hm with hm | hm
    · exact h.others m hm
    · cases List.mem_singleton.mp hm
      exact hl
  · rw [List.findSome?_append, h.first]
    rfl

/-- What is no literal is passed over. -/
theorem skip {t : Term} (h : Kept language seen kept) (ht : t.literal? = none) :
    Kept language (seen ++ [t]) kept := by
  constructor
  · intro m hm
    rcases List.mem_append.mp hm with hm | hm
    · exact h.others m hm
    · rw [← List.mem_singleton.mp hm] at ht
      cases ht
  · rw [List.findSome?_append, h.first, List.findSome?_singleton, ht, Option.or_none]

/-- Without a literal in the language the one that is kept is chosen. -/
theorem chosen (h : Kept language seen (some l)) : Chosen language seen l := by
  obtain ⟨earlier, t, later, hseen, ht, hearlier⟩ := List.findSome?_eq_some_iff.mp h.first
  rw [Term.literal?_eq_some.mp ht] at hseen
  refine .first hseen (fun m hm => ?_) h.others
  cases hearlier _ hm

/-- **What a pass finds is chosen among all objects,** and it finds nothing where no literal is. -/
theorem search_spec (h : Kept language seen kept) :
    (∀ l, search language kept rest = some l → Chosen language (seen ++ rest) l) ∧
      (search language kept rest = none → ∀ m, .literal m ∉ seen ++ rest) := by
  fun_induction search language kept rest generalizing seen with
  | case1 kept =>
      rw [List.append_nil]
      refine ⟨fun l hl => Kept.chosen (hl ▸ h), fun hnone m hm => ?_⟩
      have hfirst := List.findSome?_eq_none_iff.mp (h.first.trans hnone) _ hm
      cases hfirst
  | case2 kept m rest hm =>
      refine ⟨fun l hl => ?_, fun hnone => by cases hnone⟩
      cases hl
      exact .tagged rfl hm h.others
  | case3 kept m rest hm ih => simpa using ih (h.literal hm)
  | case4 kept t rest hother ih =>
      simpa using ih (h.skip (literal?_eq_none_of_other hother))

end Kept

/-- The pass prefers literals as they are preferred in a list of literals. -/
theorem search_eq (language : Option String) (kept : Option Literal) (objects : List Term) :
    search language kept objects =
      ((objects.filterMap Term.literal?).find? (IsIn language ·)).or
        (kept.or (objects.filterMap Term.literal?).head?) := by
  fun_induction search language kept objects with
  | case1 kept => simp
  | case2 kept l rest hl => simp [Term.literal?, hl]
  | case3 kept l rest hl ih =>
      have hliteral : (Term.literal l).literal? = some l := rfl
      rw [ih, List.filterMap_cons_some hliteral, List.find?_cons_of_neg (by simpa using hl),
        List.head?_cons, Option.or_assoc, Option.some_or]
  | case4 kept t rest hother ih =>
      rw [ih, List.filterMap_cons_none (literal?_eq_none_of_other hother)]

theorem preferred?_eq_search (language : Option String) (objects : List Term) :
    preferred? language (objects.filterMap Term.literal?) = search language none objects := by
  rw [search_eq]
  unfold preferred?
  cases language with
  | none =>
      rw [List.find?_eq_none.mpr fun l _ => by simp [IsIn]]
      rfl
  | some tag =>
      have htag : (fun l : Literal => decide (IsIn (some tag) l)) =
          fun l => decide (l.language = some tag) := by simp [IsIn]
      rw [htag]
      dsimp only
      split
      · rename_i hfound
        rw [hfound]
        rfl
      · rename_i hnone
        rw [hnone]
        rfl

/-! ### The first predicate with a literal -/

section Predicates

variable {g : Graph} {subject : Term} {language : Option String} {predicates : List Iri}

theorem preferred?_eq_none {p : Iri} :
    preferred? language (g.literals subject p) = none ↔ ¬ HasLiteral g subject p := by
  rw [Graph.literals, preferred?_eq_search]
  constructor
  · rintro hnone ⟨m, hm⟩
    exact (Kept.start.search_spec.2 hnone) m hm
  · intro hnone
    cases hfound : search language none (g.objects subject p) with
    | none => rfl
    | some l =>
        exfalso
        exact hnone ⟨l, (Kept.start.search_spec.1 l hfound).mem⟩

theorem chosen_of_preferred? {p : Iri} {l : Literal}
    (h : preferred? language (g.literals subject p) = some l) :
    Chosen language (g.objects subject p) l := by
  rw [Graph.literals, preferred?_eq_search] at h
  exact Kept.start.search_spec.1 l h

/-- The statements whose object is a literal. -/
def literalStatements (g : Graph) : List Triple := g.triples.filter (·.object.literal?.isSome)

theorem literals_eq (g : Graph) (subject : Term) (p : Iri) :
    g.literals subject p =
      ((literalStatements g).filter fun t => t.subject.same subject && t.predicate = p).filterMap
        (·.object.literal?) := by
  unfold Graph.literals Graph.objects literalStatements
  rw [List.filterMap_map, List.filter_comm]
  generalize g.triples.filter (fun t => t.subject.same subject && t.predicate = p) = about
  rw [List.filterMap_filter]
  refine List.filterMap_congr fun t _ => ?_
  cases ht : t.object.literal? <;> simp [ht]

end Predicates

/-- **Which literal describes a resource.**

There is none exactly if no predicate has a literal for the subject.  Otherwise it belongs to the
first predicate that has one, and among the objects of this predicate, in the order of the graph, it
is the first literal in the preferred language, or the first literal at all if no language is
preferred or no literal is in it.  Statements about IRIs and blank nodes make no difference: two
graphs with the same literals in the same order give the same one. -/
theorem described_by_first_predicate (g : Graph) (subject : Term) (language : Option String)
    (predicates : List Iri) :
    (firstLiteral? g subject language predicates = none ↔
      ∀ p ∈ predicates, ¬ HasLiteral g subject p) ∧
    (∀ l, firstLiteral? g subject language predicates = some l →
      ∃ before p after, predicates = before ++ p :: after ∧
        (∀ q ∈ before, ¬ HasLiteral g subject q) ∧ HasLiteral g subject p ∧
        Chosen language (g.objects subject p) l) ∧
    ∀ h : Graph, literalStatements h = literalStatements g →
      firstLiteral? h subject language predicates =
        firstLiteral? g subject language predicates := by
  unfold firstLiteral?
  refine ⟨?_, fun l hl => ?_, fun h hsame => ?_⟩
  · rw [List.findSome?_eq_none_iff]
    exact forall₂_congr fun p _ => preferred?_eq_none
  · obtain ⟨before, p, after, heq, hp, hbefore⟩ := List.findSome?_eq_some_iff.mp hl
    refine ⟨before, p, after, heq, fun q hq => preferred?_eq_none.mp (hbefore q hq), ?_,
      chosen_of_preferred? hp⟩
    by_contra hnone
    rw [preferred?_eq_none.mpr hnone] at hp
    cases hp
  · simp only [literals_eq, hsame]

/-! ### An agent with labels in two languages -/

namespace Agents

/-- An agent. -/
def agent : Term := .iri ⟨"http://ex.org/a#Agent"⟩

/-- What it is called in German. -/
def german : Literal := { text := "Ein Akteur", language := some "de" }

/-- What it is called in two languages. -/
def labels : List Triple :=
  [⟨agent, rdfs "label", .literal { text := "An agent", language := some "en" }⟩,
   ⟨agent, rdfs "label", .literal german⟩]

/-- The labels, behind one that is no literal, and a title. -/
def graph : Graph :=
  ⟨⟨agent, rdfs "label", .iri ⟨"http://ex.org/a#label"⟩⟩ :: labels ++
    [⟨agent, dcterms "title", .literal { text := "Agent" }⟩]⟩

/-- The labels and the title alone. -/
def literals : Graph := ⟨literalStatements graph⟩

end Agents

/-- The agent has its German label, whether there is a label that is no literal or not. -/
theorem agent_described_in_german :
    (firstLiteral? Agents.graph Agents.agent (some "de") titlePredicates = some Agents.german ∧
      literalStatements Agents.literals = literalStatements Agents.graph) ∧
    (∃ p ∈ titlePredicates,
      Chosen (some "de") (Agents.graph.objects Agents.agent p) Agents.german) ∧
    firstLiteral? Agents.literals Agents.agent (some "de") titlePredicates =
      some Agents.german := by
  have hfound : firstLiteral? Agents.graph Agents.agent (some "de") titlePredicates =
      some Agents.german := by decide +kernel
  have hsame : literalStatements Agents.literals = literalStatements Agents.graph := by
    decide +kernel
  obtain ⟨-, hfirst, hothers⟩ :=
    described_by_first_predicate Agents.graph Agents.agent (some "de") titlePredicates
  obtain ⟨before, p, after, heq, -, -, hchosen⟩ := hfirst _ hfound
  have hp : p ∈ titlePredicates := heq ▸ List.mem_append_right before List.mem_cons_self
  exact ⟨⟨hfound, hsame⟩, ⟨p, hp, hchosen⟩, (hothers _ hsame).trans hfound⟩

end OntoCode.Ontology

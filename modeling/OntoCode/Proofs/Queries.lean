/-
Queries of an ontology answer alike in whatever order its statements were added.

Most answers are sorted, so they are a function of what the graph holds.  The others
take the first of several: a superclass, a domain or a range, a title, a node of a
list.  They are settled where there is only one to take, which is what `Unambiguous`
asks for, together with lists that end.

A domain or range may be a union of classes in a list.  Two graphs that hold the same
statements walk along the same nodes, except that a literal may stand there in two
spellings of its language tag; so nodes are compared by `same`, and what is read off
them are IRIs, of which there is one spelling.
-/
import Mathlib.Data.List.Forall2
import Mathlib.Logic.Relation
import OntoCode.Ontology.Labels
import OntoCode.Ontology.ReferencedTypes
import OntoCode.Proofs.Sorting
import OntoCode.Proofs.Statements
import OntoCode.Proofs.Steps
import OntoCode.Proofs.Walks

namespace OntoCode

theorem nodup_eraseDups {α : Type} [BEq α] [LawfulBEq α] :
    ∀ (count : Nat) (l : List α), l.length ≤ count → l.eraseDups.Nodup := by
  intro count
  induction count with
  | zero =>
      intro l hl
      rw [List.eq_nil_of_length_eq_zero (Nat.le_zero.mp hl)]
      simp
  | succ count ih =>
      intro l hl
      cases l with
      | nil => simp
      | cons a rest =>
          rw [List.eraseDups_cons, List.nodup_cons]
          refine ⟨?_, ih _ ?_⟩
          · simp [List.mem_eraseDups]
          · have := List.length_filter_le (fun b => !b == a) rest
            simp only [List.length_cons] at hl
            omega

namespace Ontology

open OntoCode.Rdf OntoCode.Rdf.Graph OntoCode.Text

/-- A node of a list and the rest it names. -/
def RestLink (g : Graph) (node rest : Term) : Prop := g.contains ⟨node, rdfRest, rest⟩ = true

/-- No query has to choose: there is one superclass, domain and range with an IRI, one literal for
each predicate of titles and descriptions, and lists neither fork nor run in a circle. -/
structure Unambiguous (g : Graph) : Prop where
  iri : ∀ p ∈ [rdfs "subClassOf", rdfs "domain", rdfs "range"], ∀ s i j,
    g.contains ⟨s, p, .iri i⟩ = true → g.contains ⟨s, p, .iri j⟩ = true → i = j
  literal : ∀ p ∈ titlePredicates ++ descriptionPredicates, ∀ s l m,
    g.contains ⟨s, p, .literal l⟩ = true → g.contains ⟨s, p, .literal m⟩ = true →
      (Term.literal l).same (.literal m) = true
  node : ∀ p ∈ [rdfFirst, rdfRest], ∀ s a b,
    g.contains ⟨s, p, a⟩ = true → g.contains ⟨s, p, b⟩ = true → a.same b = true
  acyclic : ∀ node, ¬ Relation.TransGen (RestLink g) node node

theorem Unambiguous.of_same {g h : Graph} (hclear : Unambiguous g) (hsame : SameStatements g h) :
    Unambiguous h := by
  have hlink : RestLink h = RestLink g := by
    funext node rest
    rw [RestLink, RestLink, hsame.contains]
  refine ⟨?_, ?_, ?_, ?_⟩
  · intro p hp s i j hi hj
    exact hclear.iri p hp s i j (by rwa [hsame.contains]) (by rwa [hsame.contains])
  · intro p hp s l m hl hm
    exact hclear.literal p hp s l m (by rwa [hsame.contains]) (by rwa [hsame.contains])
  · intro p hp s a b ha hb
    exact hclear.node p hp s a b (by rwa [hsame.contains]) (by rwa [hsame.contains])
  · intro node
    rw [hlink]
    exact hclear.acyclic node

/-- Lists run in no circle where each rest ranks below the node that names it. -/
theorem acyclic_of_rank {g : Graph} (rank : String → Nat)
    (hrank : ∀ t ∈ g.triples, t.predicate = rdfRest → rank t.object.text < rank t.subject.text)
    (node : Term) : ¬ Relation.TransGen (RestLink g) node node := by
  have hstep : ∀ node rest, RestLink g node rest → rank rest.text < rank node.text := by
    intro node rest h
    obtain ⟨t, ht, htsame⟩ := contains_iff.mp h
    obtain ⟨hts, htp, hto⟩ := Triple.same_iff.mp htsame
    rw [Term.text_of_same hts, Term.text_of_same hto]
    exact hrank t ht htp.symm
  have hlink : ∀ node rest, Relation.TransGen (RestLink g) node rest →
      rank rest.text < rank node.text := by
    intro node rest h
    induction h with
    | single h => exact hstep _ _ h
    | tail _ h ih => exact Nat.lt_trans (hstep _ _ h) ih
  exact fun h => Nat.lt_irrefl _ (hlink node node h)

/-- No query has to choose where each of these predicates has one object, and each rest of a list
ranks below the node that names it. -/
theorem unambiguous_of_rank {g : Graph} (rank : String → Nat)
    (hone : ∀ t ∈ g.triples, ∀ u ∈ g.triples, t.predicate = u.predicate →
      t.predicate ∈ [rdfs "subClassOf", rdfs "domain", rdfs "range", rdfFirst, rdfRest] ++
        titlePredicates ++ descriptionPredicates →
      t.subject.key = u.subject.key → t.object.key = u.object.key)
    (hrank : ∀ t ∈ g.triples, t.predicate = rdfRest → rank t.object.text < rank t.subject.text) :
    Unambiguous g := by
  have hobject : ∀ p ∈ [rdfs "subClassOf", rdfs "domain", rdfs "range", rdfFirst, rdfRest] ++
      titlePredicates ++ descriptionPredicates, ∀ s a b,
      g.contains ⟨s, p, a⟩ = true → g.contains ⟨s, p, b⟩ = true → a.same b = true := by
    intro p hp s a b ha hb
    obtain ⟨t, ht, htsame⟩ := contains_iff.mp ha
    obtain ⟨u, hu, husame⟩ := contains_iff.mp hb
    obtain ⟨hts, htp, hto⟩ := Triple.same_iff.mp htsame
    obtain ⟨hus, hup, huo⟩ := Triple.same_iff.mp husame
    rw [Term.same_iff] at hts hto hus huo ⊢
    rw [hto, huo]
    exact hone t ht u hu (htp.symm.trans hup) (htp ▸ hp) (hts.symm.trans hus)
  refine ⟨?_, ?_, ?_, acyclic_of_rank rank hrank⟩
  · intro p hp s i j hi hj
    have := hobject p (by simp at hp ⊢; tauto) s _ _ hi hj
    simpa using this
  · intro p hp s l m hl hm
    exact hobject p (by simp at hp ⊢; tauto) s _ _ hl hm
  · intro p hp s a b ha hb
    exact hobject p (by simp at hp ⊢; tauto) s a b ha hb

/-! ### Lists that end -/

/-- The walk along a list goes by the rests of its nodes. -/
theorem restLink_of_follows {g : Graph} {node next : Term} (h : g.Follows node next) :
    RestLink g node next := by
  unfold Follows next? at h
  obtain ⟨rest, hrest, heq⟩ := Option.bind_eq_some_iff.mp h
  split at heq
  · cases heq
  · rw [Option.some.injEq] at heq
    exact heq ▸ contains_of_mem_objects (List.mem_of_head? hrest)

/-- Every list ends. -/
def ListsEnd (g : Graph) : Prop := ∀ head, ∃ members, g.listMembers? head = some members

/-- Lists that run in no circle end. -/
theorem listsEnd_of_acyclic {g : Graph}
    (hacyclic : ∀ node, ¬ Relation.TransGen (RestLink g) node node) : ListsEnd g := by
  intro head
  refine exists_listMembers?_iff.mpr fun ⟨_, again, _, hcircle⟩ => hacyclic again ?_
  exact Relation.TransGen.mono (fun _ _ => restLink_of_follows) _ _ hcircle

theorem Unambiguous.listsEnd {g : Graph} (hclear : Unambiguous g) : ListsEnd g :=
  listsEnd_of_acyclic hclear.acyclic

/-! ### The first of one -/

section First

variable {g h : Graph} (hsame : SameStatements g h)

include hsame

theorem contains_congr {s s' : Term} (hs : s.same s' = true) (p : Iri) (o : Term) :
    g.contains ⟨s, p, o⟩ = h.contains ⟨s', p, o⟩ := by
  rw [← hsame.contains, Bool.eq_iff_iff]
  exact contains_of_same (Triple.same_iff.mpr ⟨hs, rfl, Term.same_self o⟩)

/-- Where all objects are the same one, the first one of two graphs is the same. -/
theorem head?_objects {s s' : Term} (hs : s.same s' = true) {p : Iri}
    (hsingle : ∀ a b, g.contains ⟨s, p, a⟩ = true → g.contains ⟨s, p, b⟩ = true → a.same b = true) :
    Option.Rel (fun a b => Term.same a b = true) (g.objects s p).head? (h.objects s' p).head? := by
  have hto : ∀ a ∈ g.objects s p, ∃ b, b ∈ h.objects s' p := by
    intro a ha
    have hin := contains_of_mem_objects ha
    rw [contains_congr hsame hs] at hin
    obtain ⟨b, hb, -⟩ := exists_mem_objects hin
    exact ⟨b, hb⟩
  have hfrom : ∀ b ∈ h.objects s' p, g.contains ⟨s, p, b⟩ = true := by
    intro b hb
    rw [contains_congr hsame hs]
    exact contains_of_mem_objects hb
  cases hg : (g.objects s p).head? with
  | none =>
      have hnil : g.objects s p = [] := List.head?_eq_none_iff.mp hg
      cases hh : (h.objects s' p).head? with
      | none => exact .none
      | some b =>
          obtain ⟨a, ha, -⟩ := exists_mem_objects (hfrom b (List.mem_of_head? hh))
          simp [hnil] at ha
  | some a =>
      have ha : a ∈ g.objects s p := List.mem_of_head? hg
      cases hh : (h.objects s' p).head? with
      | none =>
          obtain ⟨b, hb⟩ := hto a ha
          simp [List.head?_eq_none_iff.mp hh] at hb
      | some b =>
          exact .some (hsingle a b (contains_of_mem_objects ha)
            (hfrom b (List.mem_of_head? hh)))

theorem firstIri?_congr {s : Term} {p : Iri}
    (hsingle : ∀ i j, g.contains ⟨s, p, .iri i⟩ = true → g.contains ⟨s, p, .iri j⟩ = true → i = j) :
    firstIri? g s p = firstIri? h s p := by
  have hperm := hsame.objectIris_perm s p
  have hall : ∀ i ∈ g.objectIris s p, ∀ j ∈ g.objectIris s p, i = j :=
    fun i hi j hj => hsingle i j (mem_objectIris.mp hi) (mem_objectIris.mp hj)
  have htrivial : ∀ l : List Iri, l.Pairwise fun _ _ => True :=
    fun l => List.pairwise_of_forall fun _ _ => trivial
  unfold firstIri?
  rw [hperm.eq_of_pairwise (fun i j hi hj _ _ => hall i hi j (hperm.mem_iff.mpr hj))
    (htrivial _) (htrivial _)]

end First

/-! ### Lists and unions -/

/-- The IRIs among the members of a list; a list that never ends has none. -/
def memberIris (g : Graph) (head : Term) : List Iri :=
  ((g.listMembers? head).getD []).filterMap Term.iri?

/-- The classes that one object of a domain or range statement refers to, if its lists end. -/
def typesIn (g : Graph) : Term → List Iri
  | .iri i => [i]
  | .blank node => (g.objects (.blank node) (owl "unionOf")).flatMap (memberIris g)
  | .literal _ => []

section End

variable {g : Graph} (hends : ListsEnd g)

include hends

theorem typesOf_eq (o : Term) : typesOf g o = .ok (typesIn g o) := by
  cases o with
  | iri i => rfl
  | literal l => rfl
  | blank node =>
      show unionTypes g (.blank node) = _
      unfold unionTypes
      rw [@mapM_ok _ _ _ _ (memberIris g)]
      · rw [typesIn, List.flatMap_def]
        rfl
      · intro head _
        obtain ⟨members, hmembers⟩ := hends head
        simp [memberIris, hmembers]

theorem referencedTypes_eq (s : Term) (p : Iri) :
    referencedTypes g s p = .ok ((g.objects s p).flatMap (typesIn g)).eraseDups := by
  unfold referencedTypes
  rw [mapM_ok fun o _ => typesOf_eq hends o, List.flatMap_def]
  rfl

theorem propertiesOf_eq (class_ : Iri) (side : PropertyEnd) :
    propertiesOf g class_ side = .ok ((properties g).filter fun property =>
      ((g.objects (.iri property) side.predicate).flatMap (typesIn g)).eraseDups.contains
        class_) := by
  refine filterM_ok fun property _ => ?_
  rw [referencedTypes_eq hends]
  rfl

end End

section Lists

variable {g h : Graph} (hsame : SameStatements g h) (hclear : Unambiguous g)

include hsame hclear

theorem next?_congr {node node' : Term} (hnode : node.same node' = true) :
    Option.Rel (fun a b => Term.same a b = true) (g.next? node) (h.next? node') := by
  unfold next?
  have hrel := head?_objects hsame hnode (hclear.node rdfRest (by simp) node)
  generalize (g.objects node rdfRest).head? = first at hrel ⊢
  generalize (h.objects node' rdfRest).head? = first' at hrel ⊢
  cases hrel with
  | none => exact .none
  | @some a b hab =>
      have hnil : a = .iri rdfNil ↔ b = .iri rdfNil := by
        constructor
        · rintro rfl
          exact Term.iri_same.mp hab
        · rintro rfl
          exact Term.same_iri.mp hab
      simp only [Option.bind_some, hnil]
      split
      · exact .none
      · exact .some hab

/-- Walks from the same node lead along the same nodes. -/
theorem nodesFrom?_congr : ∀ (count : Nat) {left left' : List Term} {node node' : Term}
    {nodes nodes' : List Term}, left.length = count → node.same node' = true →
    g.nodesFrom? left node = some nodes → h.nodesFrom? left' node' = some nodes' →
    List.Forall₂ (fun a b => Term.same a b = true) nodes nodes' := by
  intro count
  induction count using Nat.strong_induction_on with
  | _ count ih =>
      intro left left' node node' nodes nodes' hlen hnode hg hh
      rw [nodesFrom?] at hg hh
      cases hng : g.next? node with
      | none =>
          have hnh : h.next? node' = none := by
            have := next?_congr hsame hclear hnode
            rw [hng] at this
            cases hnh : h.next? node' with
            | none => rfl
            | some b => rw [hnh] at this; cases this
          simp only [hng, Option.some.injEq] at hg
          simp only [hnh, Option.some.injEq] at hh
          rw [← hg, ← hh]
          exact .cons hnode .nil
      | some next =>
          obtain ⟨next', hnh, hnext⟩ : ∃ next', h.next? node' = some next' ∧
              next.same next' = true := by
            have := next?_congr hsame hclear hnode
            rw [hng] at this
            cases hnh : h.next? node' with
            | none => rw [hnh] at this; cases this
            | some b =>
                rw [hnh] at this
                cases this with
                | some hab => exact ⟨b, rfl, hab⟩
          simp only [hng] at hg
          simp only [hnh] at hh
          split at hg
          · rename_i hin
            split at hh
            · obtain ⟨rest, hrest, rfl⟩ := Option.map_eq_some_iff.mp hg
              obtain ⟨rest', hrest', rfl⟩ := Option.map_eq_some_iff.mp hh
              have hshort : (left.erase next).length < count := by
                have := List.length_erase_of_mem hin
                have := List.length_pos_of_mem hin
                omega
              exact .cons hnode (ih _ hshort rfl hnext hrest hrest')
            · simp at hh
          · simp at hg

theorem memberIris_congr {head head' : Term} (hhead : head.same head' = true) :
    memberIris g head = memberIris h head' := by
  have hclear' := hclear.of_same hsame
  obtain ⟨members, hmembers⟩ := hclear.listsEnd head
  obtain ⟨members', hmembers'⟩ := hclear'.listsEnd head'
  simp only [memberIris, hmembers, hmembers', Option.getD_some]
  obtain ⟨nodes, hnodes, rfl⟩ := Option.map_eq_some_iff.mp hmembers
  obtain ⟨nodes', hnodes', rfl⟩ := Option.map_eq_some_iff.mp hmembers'
  have hwalk : List.Forall₂ (fun a b => Term.same a b = true) nodes nodes' := by
    have hnil : head = .iri rdfNil ↔ head' = .iri rdfNil := by
      constructor
      · rintro rfl
        exact Term.iri_same.mp hhead
      · rintro rfl
        exact Term.same_iri.mp hhead
    unfold listNodes? at hnodes hnodes'
    by_cases hend : head = .iri rdfNil
    · rw [if_pos hend, Option.some.injEq] at hnodes
      rw [if_pos (hnil.mp hend), Option.some.injEq] at hnodes'
      rw [← hnodes, ← hnodes']
      exact .nil
    · rw [if_neg hend] at hnodes
      rw [if_neg fun hc => hend (hnil.mpr hc)] at hnodes'
      exact nodesFrom?_congr hsame hclear _ rfl hhead hnodes hnodes'
  rw [List.filterMap_filterMap, List.filterMap_filterMap]
  clear hnodes hnodes' hmembers hmembers'
  induction hwalk with
  | nil => rfl
  | @cons a b rest rest' hab _ ih =>
      have hfirst : ((g.objects a rdfFirst).head?.bind Term.iri?) =
          ((h.objects b rdfFirst).head?.bind Term.iri?) := by
        have hrel := head?_objects hsame hab (hclear.node rdfFirst (by simp) a)
        generalize (g.objects a rdfFirst).head? = first at hrel ⊢
        generalize (h.objects b rdfFirst).head? = first' at hrel ⊢
        cases hrel with
        | none => rfl
        | some hxy => exact Term.iri?_of_same hxy
      rw [List.filterMap_cons, List.filterMap_cons, hfirst, ih]

/-- The same object refers to the same classes. -/
theorem mem_typesIn_congr {o o' : Term} (ho : o.same o' = true) {i : Iri} :
    i ∈ typesIn g o ↔ i ∈ typesIn h o' := by
  cases o with
  | iri j => rw [Term.iri_same.mp ho]; rfl
  | literal l =>
      cases o' with
      | literal m => rfl
      | iri j => exact absurd (Term.same_iri.mp ho) (by simp)
      | blank node => exact absurd (Term.blank_same.mp (Term.same_symm ho)) (by simp)
  | blank node =>
      rw [Term.blank_same.mp ho]
      simp only [typesIn, List.mem_flatMap]
      constructor
      · rintro ⟨head, hhead, hi⟩
        have hin := contains_of_mem_objects hhead
        rw [hsame.contains] at hin
        obtain ⟨head', hhead', heq⟩ := exists_mem_objects hin
        exact ⟨head', hhead', by rwa [← memberIris_congr hsame hclear heq]⟩
      · rintro ⟨head', hhead', hi⟩
        have hin := contains_of_mem_objects hhead'
        rw [← hsame.contains] at hin
        obtain ⟨head, hhead, heq⟩ := exists_mem_objects hin
        exact ⟨head, hhead, by rwa [memberIris_congr hsame hclear (Term.same_symm heq)]⟩

/-- A subject refers to the same classes. -/
theorem mem_types_congr {s : Term} {p i : Iri} :
    i ∈ ((g.objects s p).flatMap (typesIn g)).eraseDups ↔
      i ∈ ((h.objects s p).flatMap (typesIn h)).eraseDups := by
  simp only [List.mem_eraseDups, List.mem_flatMap]
  constructor
  · rintro ⟨o, ho, hi⟩
    have hin := contains_of_mem_objects ho
    rw [hsame.contains] at hin
    obtain ⟨o', ho', heq⟩ := exists_mem_objects hin
    exact ⟨o', ho', (mem_typesIn_congr hsame hclear heq).mp hi⟩
  · rintro ⟨o', ho', hi⟩
    have hin := contains_of_mem_objects ho'
    rw [← hsame.contains] at hin
    obtain ⟨o, ho, heq⟩ := exists_mem_objects hin
    exact ⟨o, ho, (mem_typesIn_congr hsame hclear (Term.same_symm heq)).mpr hi⟩

end Lists

/-! ### Classes, properties and terms -/

theorem mem_withTypes_iri {g : Graph} {types : List Iri} {i : Iri} :
    Term.iri i ∈ withTypes g types ↔
      ∃ type ∈ types, g.contains ⟨.iri i, rdfType, .iri type⟩ = true := by
  unfold withTypes
  rw [List.mem_eraseDups, List.mem_flatMap]
  simp only [mem_subjects_iri]

theorem mem_classes_iri {g : Graph} {i : Iri} :
    Term.iri i ∈ classes g ↔
      ∃ type ∈ classTypes, g.contains ⟨.iri i, rdfType, .iri type⟩ = true := by
  unfold classes
  rw [mem_sortByTexts, mem_withTypes_iri]

theorem iris_nodup {l : List Term} (h : l.Nodup) : (l.filterMap Term.iri?).Nodup := by
  refine List.pairwise_filterMap.mpr (h.imp ?_)
  intro a b hab i hi j hj heq
  rw [Term.iri?_eq_some] at hi hj
  exact hab (by rw [hi, hj, heq])

theorem mem_iris {l : List Term} {i : Iri} : i ∈ l.filterMap Term.iri? ↔ Term.iri i ∈ l := by
  simp [List.mem_filterMap, Term.iri?_eq_some]

theorem mem_terms_of_class {g : Graph} {i : Iri} (h : Term.iri i ∈ classes g) : i ∈ terms g := by
  unfold terms
  rw [mem_sortByTexts, List.mem_eraseDups]
  exact List.mem_append_left _ (mem_iris.mpr h)

theorem withTypes_nodup (g : Graph) (types : List Iri) : (withTypes g types).Nodup :=
  nodup_eraseDups _ _ (Nat.le_refl _)

section Sorted

variable {g h : Graph} (hsame : SameStatements g h)

include hsame

theorem withTypes_iris_perm (types : List Iri) :
    ((withTypes g types).filterMap Term.iri?).Perm ((withTypes h types).filterMap Term.iri?) := by
  rw [List.perm_ext_iff_of_nodup (iris_nodup (withTypes_nodup g types))
    (iris_nodup (withTypes_nodup h types))]
  intro i
  rw [mem_iris, mem_iris, mem_withTypes_iri, mem_withTypes_iri]
  simp only [hsame.contains]

theorem properties_congr : properties g = properties h := by
  refine sortByTexts_congr (withTypes_iris_perm hsame propertyTypes) ?_
  intro i _ j _ heq
  simpa using heq

/-- The classes with an IRI come in one order, wherever blank nodes and literals stand among
them. -/
theorem classIris_congr : (classes g).filterMap Term.iri? = (classes h).filterMap Term.iri? := by
  have hperm : ((classes g).filterMap Term.iri?).Perm ((classes h).filterMap Term.iri?) :=
    ((sortByTexts_perm _ _).filterMap _).trans
      ((withTypes_iris_perm hsame classTypes).trans ((sortByTexts_perm _ _).filterMap _).symm)
  have hsorted : ∀ g : Graph, ((classes g).filterMap Term.iri?).Pairwise
      fun i j => notAfter [i.text] [j.text] = true := by
    intro g
    refine List.pairwise_filterMap.mpr ((sortByTexts_sorted _ _).imp ?_)
    intro a b hab i hi j hj
    rw [Term.iri?_eq_some] at hi hj
    simpa [hi, hj, Term.text] using hab
  refine hperm.eq_of_pairwise ?_ (hsorted g) (hsorted h)
  intro i j _ _ hij hji
  simpa using notAfter_antisymm hij hji

theorem classes_contains_congr (i : Iri) :
    (classes g).contains (.iri i) = (classes h).contains (.iri i) := by
  rw [Bool.eq_iff_iff, List.contains_iff_mem, List.contains_iff_mem, mem_classes_iri,
    mem_classes_iri]
  simp only [hsame.contains]

theorem terms_congr : terms g = terms h := by
  unfold terms
  rw [classIris_congr hsame, properties_congr hsame]

theorem seeAlso_congr (resource : Term) : seeAlso g resource = seeAlso h resource := by
  refine sortByTexts_congr ((hsame.objectIris_perm resource _).map _) ?_
  intro s _ t _ heq
  simpa using heq

theorem hasType_congr (resource : Term) (type : Iri) :
    hasType g resource type = hasType h resource type := hsame.contains _

end Sorted

/-! ### Titles and descriptions -/

/-- Of literals with one text, whichever is preferred has this text. -/
theorem preferred?_text {language : Option String} {literals : List Literal}
    (hone : ∀ l ∈ literals, ∀ m ∈ literals, l.text = m.text) :
    (preferred? language literals).map (·.text) = literals.head?.map (·.text) := by
  unfold preferred?
  split
  · rfl
  · split
    · rename_i found hfound
      have hmem := List.mem_of_find?_eq_some hfound
      cases literals with
      | nil => simp at hmem
      | cons l rest => simp [hone found hmem l (by simp)]
    · rfl

section Chosen

variable {g h : Graph} (hsame : SameStatements g h) (hclear : Unambiguous g)

include hsame hclear

theorem preferred?_congr (language : Option String) (s : Term) {p : Iri}
    (hp : p ∈ titlePredicates ++ descriptionPredicates) :
    (preferred? language (g.literals s p)).map (·.text) =
      (preferred? language (h.literals s p)).map (·.text) := by
  have hone : ∀ g : Graph, Unambiguous g → ∀ l ∈ g.literals s p, ∀ m ∈ g.literals s p,
      l.text = m.text := by
    intro g hclear l hl m hm
    exact Term.text_of_same (hclear.literal p hp s l m
      (contains_of_mem_objects (mem_literals.mp hl)) (contains_of_mem_objects (mem_literals.mp hm)))
  have hfind : ∀ {g h : Graph}, SameStatements g h → ∀ l ∈ g.literals s p,
      ∃ m ∈ h.literals s p, l.text = m.text := by
    intro g h hsame l hl
    have hin := contains_of_mem_objects (mem_literals.mp hl)
    rw [hsame.contains] at hin
    obtain ⟨o, ho, heq⟩ := exists_mem_objects hin
    cases o with
    | literal m => exact ⟨m, mem_literals.mpr ho, Term.text_of_same heq⟩
    | iri i => exact absurd (Term.same_iri.mp heq) (by simp)
    | blank node => exact absurd (Term.blank_same.mp (Term.same_symm heq)) (by simp)
  have honeh := hone h (hclear.of_same hsame)
  rw [preferred?_text (hone g hclear), preferred?_text honeh]
  cases hg : g.literals s p with
  | nil =>
      cases hh : h.literals s p with
      | nil => rfl
      | cons m rest =>
          obtain ⟨l, hl, -⟩ := hfind hsame.symm m (by simp [hh])
          simp [hg] at hl
  | cons l rest =>
      obtain ⟨m, hm, heq⟩ := hfind hsame l (by simp [hg])
      cases hh : h.literals s p with
      | nil => simp [hh] at hm
      | cons m' rest' => simp [heq, honeh m hm m' (by simp [hh])]

theorem firstLiteral?_congr {language : Option String} {s : Term} {predicates : List Iri}
    (hp : ∀ p ∈ predicates, p ∈ titlePredicates ++ descriptionPredicates) :
    (firstLiteral? g s language predicates).map (·.text) =
      (firstLiteral? h s language predicates).map (·.text) := by
  unfold firstLiteral?
  rw [List.map_findSome?, List.map_findSome?]
  induction predicates with
  | nil => rfl
  | cons p rest ih =>
      have hhead := preferred?_congr hsame hclear language s (hp p (by simp))
      simp only [List.findSome?_cons, Function.comp_apply, hhead]
      rw [ih fun q hq => hp q (by simp [hq])]

theorem title?_congr (language : Option String) (resource : Term) :
    title? g language resource = title? h language resource :=
  firstLiteral?_congr hsame hclear fun _ hp => List.mem_append_left _ hp

theorem description?_congr (language : Option String) (resource : Term) :
    description? g language resource = description? h language resource :=
  firstLiteral?_congr hsame hclear fun _ hp => List.mem_append_right _ hp

theorem propertiesOf_congr (class_ : Iri) (side : PropertyEnd) :
    propertiesOf g class_ side = propertiesOf h class_ side := by
  rw [propertiesOf_eq hclear.listsEnd, propertiesOf_eq (hclear.of_same hsame).listsEnd,
    properties_congr hsame]
  congr 1
  refine List.filter_congr fun property _ => ?_
  rw [Bool.eq_iff_iff, List.contains_iff_mem, List.contains_iff_mem]
  exact mem_types_congr hsame hclear

theorem firstIri?_congr_of_mem {s : Term} {p : Iri}
    (hp : p ∈ [rdfs "subClassOf", rdfs "domain", rdfs "range"]) :
    firstIri? g s p = firstIri? h s p :=
  firstIri?_congr hsame fun i j hi hj => hclear.iri p hp s i j hi hj

end Chosen

end Ontology

end OntoCode

/-
Lists are read as they were written.

A list is written over nodes that the graph says nothing about yet, one for each
member.  What matters of a graph is then `HoldsList`: each node has the one member and
the one rest that the list gives it.  Whatever else the graph holds and in whatever
order the statements came, the walk from the first node takes the nodes one by one and
ends behind the last of them.
-/
import OntoCode.Proofs.Queries

namespace OntoCode

namespace Rdf

open OntoCode.Rdf.Graph

/-- The node that a list over some nodes starts at: the first one, or the empty list. -/
def listHead : List Term → Term
  | [] => .iri rdfNil
  | node :: _ => node

/-- The statements of a list with the given members over the given nodes. -/
def listStatements : List Term → List Term → List Triple
  | node :: nodes, member :: members =>
    ⟨node, rdfFirst, member⟩ :: ⟨node, rdfRest, listHead nodes⟩ :: listStatements nodes members
  | _, _ => []

namespace Graph

/-- Nodes that a list can be written over: they are different ones, none of them is the empty list,
and none of them has a member or a rest so far. -/
structure FreeFor (g : Graph) (nodes : List Term) : Prop where
  distinct : nodes.Pairwise fun a b => a.same b = false
  notNil : Term.iri rdfNil ∉ nodes
  first : ∀ node ∈ nodes, g.objects node rdfFirst = []
  rest : ∀ node ∈ nodes, g.objects node rdfRest = []

/-- Each of the nodes has one of the members, and the next node as its rest. -/
inductive HoldsList (g : Graph) : List Term → List Term → Prop
  | nil : HoldsList g [] []
  | cons {node member : Term} {nodes members : List Term}
      (hfirst : g.objects node rdfFirst = [member])
      (hrest : g.objects node rdfRest = [listHead nodes])
      (htail : HoldsList g nodes members) : HoldsList g (node :: nodes) (member :: members)

variable {g : Graph} {nodes members : List Term}

/-! ### Reading -/

namespace HoldsList

/-- The walk along a list takes its nodes in turn. -/
theorem getElem?_eq (h : g.HoldsList nodes members) (hnil : Term.iri rdfNil ∉ nodes)
    (steps : Nat) : nodes[steps]? = g.nodeAfter? (listHead nodes) steps := by
  induction h generalizing steps with
  | nil => rfl
  | @cons node member nodes members _ hrest _ ih =>
      obtain ⟨hne, htail⟩ := not_or.mp (mt List.mem_cons.mpr hnil)
      have hhead : listHead (node :: nodes) ≠ .iri rdfNil := Ne.symm hne
      rw [nodeAfter?, if_neg hhead]
      cases steps with
      | zero => rfl
      | succ steps =>
          rw [List.getElem?_cons_succ, ih htail, nodeAfter?]
          show _ = (g.next? node).bind fun next => g.nodeFrom? next steps
          rw [next?, hrest, List.head?_cons, Option.bind_some]
          split <;> rfl

theorem members_eq (h : g.HoldsList nodes members) :
    (nodes.filterMap fun node => (g.objects node rdfFirst).head?) = members := by
  induction h with
  | nil => rfl
  | cons hfirst _ _ ih => rw [List.filterMap_cons, hfirst, List.head?_cons, ih]

/-- The first node may be written as any term that is the same one. -/
theorem replaceHead (h : g.HoldsList nodes members) {head : Term}
    (hhead : head.same (listHead nodes) = true) :
    ∃ nodes', g.HoldsList nodes' members ∧ listHead nodes' = head ∧
      (Term.iri rdfNil ∈ nodes' → .iri rdfNil ∈ nodes) := by
  cases h with
  | nil => exact ⟨[], .nil, (Term.same_iri.mp hhead).symm, id⟩
  | @cons node member nodes members hfirst hrest htail =>
      refine ⟨head :: nodes, .cons ?_ ?_ htail, rfl, fun hin => ?_⟩
      · rw [objects_of_same hhead, ← hfirst]
        rfl
      · rw [objects_of_same hhead, ← hrest]
        rfl
      · rcases List.mem_cons.mp hin with rfl | hin
        · exact List.mem_cons.mpr (.inl (Term.iri_same.mp hhead).symm)
        · exact List.mem_cons_of_mem _ hin

/-- **A list that a graph holds is read as it is.** -/
theorem listMembers?_eq (h : g.HoldsList nodes members) (hnil : Term.iri rdfNil ∉ nodes)
    {head : Term} (hhead : head.same (listHead nodes) = true) :
    g.listMembers? head = some members := by
  obtain ⟨nodes', h, rfl, hmem⟩ := h.replaceHead hhead
  rw [listMembers?, listNodes?_eq_some_iff.mpr (h.getElem?_eq (mt hmem hnil)), Option.map_some,
    h.members_eq]

end HoldsList

/-! ### Writing -/

theorem rdfFirst_ne_rdfRest : rdfFirst ≠ rdfRest := by decide

/-- The statements of a list are about its nodes, and give them members and rests. -/
theorem of_mem_listStatements {t : Triple} (h : t ∈ listStatements nodes members) :
    t.subject ∈ nodes ∧ (t.predicate = rdfFirst ∨ t.predicate = rdfRest) := by
  fun_induction listStatements nodes members with
  | case1 node nodes member members ih =>
      rcases List.mem_cons.mp h with rfl | h
      · exact ⟨List.mem_cons_self, .inl rfl⟩
      rcases List.mem_cons.mp h with rfl | h
      · exact ⟨List.mem_cons_self, .inr rfl⟩
      exact ⟨List.mem_cons_of_mem _ (ih h).1, (ih h).2⟩
  | case2 => cases h

/-- A list gives each of its nodes one member and one rest. -/
theorem listStatements_pairwise (h : nodes.Pairwise fun a b => a.same b = false) :
    (listStatements nodes members).Pairwise fun t u =>
      ¬ (t.subject.same u.subject = true ∧ t.predicate = u.predicate) := by
  fun_induction listStatements nodes members with
  | case1 node nodes member members ih =>
      obtain ⟨hnode, hnodes⟩ := List.pairwise_cons.mp h
      have hother : ∀ t ∈ listStatements nodes members, ¬ node.same t.subject = true := by
        intro t ht
        rw [hnode _ (of_mem_listStatements ht).1]
        exact Bool.false_ne_true
      refine .cons ?_ (.cons (fun t ht hsame => hother t ht hsame.1) (ih hnodes))
      intro t ht
      rcases List.mem_cons.mp ht with rfl | ht
      · exact fun hsame => rdfFirst_ne_rdfRest hsame.2
      · exact fun hsame => hother t ht hsame.1
  | case2 => exact .nil

/-- A graph in which the statements of a list are all that is said of its nodes holds the list. -/
theorem holdsList_of_objects (hlength : nodes.length = members.length)
    (h : ∀ t ∈ listStatements nodes members, g.objects t.subject t.predicate = [t.object]) :
    g.HoldsList nodes members := by
  induction nodes generalizing members with
  | nil =>
      rw [List.eq_nil_of_length_eq_zero hlength.symm]
      exact .nil
  | cons node nodes ih =>
      obtain ⟨member, members, rfl⟩ := List.exists_cons_of_length_eq_add_one hlength.symm
      refine .cons (h ⟨node, rdfFirst, member⟩ (by simp [listStatements]))
        (h ⟨node, rdfRest, listHead nodes⟩ (by simp [listStatements]))
        (ih (by simpa using hlength) fun t ht => h t ?_)
      exact List.mem_cons_of_mem _ (List.mem_cons_of_mem _ ht)

/-- **A graph holds a list that was written to it,** in whatever order its statements were added. -/
theorem holdsList_insertAll {ts : List Triple} (hlength : nodes.length = members.length)
    (hfree : g.FreeFor nodes) (hts : ts.Perm (listStatements nodes members)) :
    (g.insertAll ts).HoldsList nodes members := by
  have hapart : ts.Pairwise fun t u =>
      ¬ (t.subject.same u.subject = true ∧ t.predicate = u.predicate) := by
    refine (hts.pairwise_iff fun {t u} h hsame => h ?_).mpr
      (listStatements_pairwise hfree.distinct)
    exact ⟨Term.same_symm hsame.1, hsame.2.symm⟩
  refine holdsList_of_objects hlength fun t ht => ?_
  refine objects_insertAll (hts.mem_iff.mpr ht) hapart ?_
  obtain ⟨hsubject, hfirst | hrest⟩ := of_mem_listStatements ht
  · rw [hfirst]
    exact hfree.first _ hsubject
  · rw [hrest]
    exact hfree.rest _ hsubject

end Graph

end Rdf

namespace Ontology

open OntoCode.Rdf OntoCode.Rdf.Graph

/-- A union in one list is that of the IRIs in it. -/
theorem unionTypes_of_only {g : Graph} {node head : Term} {members : List Term}
    (hunion : g.objects node (owl "unionOf") = [head])
    (hmembers : g.listMembers? head = some members) :
    unionTypes g node = .ok (members.filterMap Term.iri?) := by
  unfold unionTypes
  rw [hunion, @mapM_ok _ _ _ _ fun _ => members.filterMap Term.iri?]
  · simp [pure, Except.pure, bind, Except.bind]
  · intro a ha
    rw [List.mem_singleton.mp ha, hmembers]

/-- A subject that refers to one union refers to the classes of it, each once. -/
theorem referencedTypes_of_only {g : Graph} {subject : Term} {predicate : Iri} {node : BlankNode}
    {types : List Iri} (honly : g.objects subject predicate = [.blank node])
    (htypes : unionTypes g (.blank node) = .ok types) :
    referencedTypes g subject predicate = .ok types.eraseDups := by
  unfold referencedTypes
  rw [honly, @mapM_ok _ _ _ _ fun _ => types]
  · simp [pure, Except.pure, bind, Except.bind]
  · intro a ha
    rw [List.mem_singleton.mp ha]
    exact htypes

/--
**A list is read as it was written.**

Take any graph, any list of terms, and for each of them a node that the graph gives no
member and no rest.  When the statements of the list are added, in whatever order, the
list that starts at the first node has exactly these members.

A union in this list alone is that of the IRIs among them, in order.  A property with this
union as its only domain or range refers to exactly these IRIs, and to each of them once.
-/
theorem list_read_as_written {g : Graph} {nodes members : List Term} {ts : List Triple}
    (hlength : nodes.length = members.length) (hfree : g.FreeFor nodes)
    (hts : ts.Perm (listStatements nodes members)) :
    (g.insertAll ts).listMembers? (listHead nodes) = some members ∧
    ∀ union head, head.same (listHead nodes) = true →
      (g.insertAll ts).objects (.blank union) (owl "unionOf") = [head] →
      unionTypes (g.insertAll ts) (.blank union) = .ok (members.filterMap Term.iri?) ∧
      ∀ property (side : PropertyEnd),
        (g.insertAll ts).objects property side.predicate = [.blank union] →
        ∃ types, referencedTypes (g.insertAll ts) property side.predicate = .ok types ∧
          types.Nodup ∧ ∀ i, i ∈ types ↔ Term.iri i ∈ members := by
  have hlist := holdsList_insertAll hlength hfree hts
  refine ⟨hlist.listMembers?_eq hfree.notNil (Term.same_self _), ?_⟩
  intro union head hhead hunion
  have htypes := unionTypes_of_only hunion (hlist.listMembers?_eq hfree.notNil hhead)
  refine ⟨htypes, fun property side honly => ?_⟩
  refine ⟨_, referencedTypes_of_only honly htypes, nodup_eraseDups _ _ (Nat.le_refl _), fun i => ?_⟩
  rw [List.mem_eraseDups, mem_iris]

/-! ### A union of two classes -/

/-- The nodes of a list: two blank ones, one with an IRI and another blank one. -/
def mixedNodes : List Term :=
  [.blank ⟨"l1", false⟩, .blank ⟨"l2", false⟩, .iri ⟨"http://ex.org/a#l3"⟩, .blank ⟨"l4", false⟩]

/-- A class, a literal, another class, and the first class again. -/
def mixedMembers : List Term :=
  [.iri ⟨"http://ex.org/a#A"⟩, .literal { text := "x" }, .iri ⟨"http://ex.org/a#B"⟩,
    .iri ⟨"http://ex.org/a#A"⟩]

def mixedUnion : BlankNode := ⟨"u", false⟩

/-- A property with a union as its range.  The list of the union is not there yet, but another one
that it is to be the rest of. -/
def mixedRange : Graph :=
  .ofList [⟨.iri ⟨"http://ex.org/a#p"⟩, rdfs "range", .blank mixedUnion⟩,
    ⟨.blank mixedUnion, owl "unionOf", .blank ⟨"l1", false⟩⟩,
    ⟨.blank ⟨"l0", false⟩, rdfFirst, .iri ⟨"http://ex.org/a#C"⟩⟩,
    ⟨.blank ⟨"l0", false⟩, rdfRest, .blank ⟨"l1", false⟩⟩]

theorem mixedNodes_free : mixedRange.FreeFor mixedNodes :=
  ⟨by decide, by decide, by decide, by decide⟩

/-- The list is read as it is after it was written from its end. -/
theorem mixed_list_read_as_written :
    let written := mixedRange.insertAll (listStatements mixedNodes mixedMembers).reverse
    mixedNodes.length = mixedMembers.length ∧ mixedRange.FreeFor mixedNodes ∧
      written.listMembers? (.blank ⟨"l1", false⟩) = some mixedMembers ∧
      unionTypes written (.blank mixedUnion) =
        .ok [⟨"http://ex.org/a#A"⟩, ⟨"http://ex.org/a#B"⟩, ⟨"http://ex.org/a#A"⟩] ∧
      ∃ types, referencedTypes written (.iri ⟨"http://ex.org/a#p"⟩) (rdfs "range") = .ok types ∧
        types.Nodup ∧ ∀ i, i ∈ types ↔ Term.iri i ∈ mixedMembers := by
  obtain ⟨hmembers, hunion⟩ :=
    @list_read_as_written mixedRange mixedNodes mixedMembers _ rfl mixedNodes_free
      (List.reverse_perm _)
  obtain ⟨htypes, hrange⟩ := hunion mixedUnion (.blank ⟨"l1", false⟩) (by decide) (by decide)
  exact ⟨rfl, mixedNodes_free, hmembers, htypes,
    hrange (.iri ⟨"http://ex.org/a#p"⟩) .range (by decide)⟩

end Ontology

end OntoCode

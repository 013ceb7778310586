/-
Reading undoes writing.

Writing a root leaves a graph that states all that it refers to, and more: entities
that refer to one of these are written as well.  Loading the root follows references
only, so of all that is stated it makes what the root reaches, each entity once, and
with its fields as they were.  Inverse collections are not stated.  They are put
together from the references between the entities that were made, so an entity that
refers to a loaded one and is not reached is missing there.
-/
import OntoCode.Proofs.Loading

namespace OntoCode

open OntoCode.Rdf OntoCode.Rdf.Graph

/-- From a number on, a store holds for each entity that a root reaches one that mirrors it, and
nothing else. -/
structure Mirrored (classes : EntityClasses) (written : Store) (root : EntityId) (base : EntityId)
    (image : EntityId → EntityId) (loaded : Store) : Prop where
  /-- There is one entity for each that is reached, of its class and with its IRI. -/
  entity : ∀ a e, Relation.ReflTransGen (written.RefersTo classes) root a →
    written.entity? a = some e → ∀ x, base ≤ x → (loaded.key? x = some e.key ↔ x = image a)
  /-- Every one stands for an entity that is reached. -/
  only : ∀ x, base ≤ x ∧ x < loaded.next ↔
    ∃ a, Relation.ReflTransGen (written.RefersTo classes) root a ∧ x = image a
  /-- Fields hold the same values, and refer to what stands for the same entities. -/
  field : ∀ a e, Relation.ReflTransGen (written.RefersTo classes) root a →
    written.entity? a = some e → ∀ f ∈ classes.fields e.className,
      ∃ before after, written.content? a f.name = some before ∧
        loaded.content? (image a) f.name = some after ∧
        Mirrors (fun b y => y = image b) before after
  /-- Inverse collections hold those that refer to their owner among the entities that are
  reached. -/
  inverse : ∀ a e, Relation.ReflTransGen (written.RefersTo classes) root a →
    written.entity? a = some e → ∀ r ∈ classes.inverses e.className,
      ∃ members, loaded.content? (image a) r = some (.set members) ∧
        ∀ item, item ∈ members ↔
          ∃ b, Relation.ReflTransGen (written.RefersTo classes) root b ∧
            written.RefersBy classes b r a ∧ item = .entity (image b)

/-! ### From the graph to the transcript -/

section Reading

variable {classes : EntityClasses} {factory : EntityFactory} {s : Store} {g : Graph}
  {ids : List EntityId} {root : EntityId}

/-- The IRIs that loading an entity may meet: its own, and the objects of the graph. -/
def targetsOf (g : Graph) (iri : Iri) : List Iri := iri :: g.triples.filterMap (·.object.iri?)

theorem mem_targetsOf (hs : s.Regular classes factory) (hg : StatedBy classes s ids g)
    (hids : ∀ a, Relation.ReflTransGen (s.RefersTo classes) root a → a ∈ ids) {e : Entity}
    (he : s.entity? root = some e) {a : EntityId} {d : Entity}
    (ha : Relation.ReflTransGen (s.RefersTo classes) root a) (hd : s.entity? a = some d) :
    d.iri ∈ targetsOf g e.iri := by
  rcases Relation.ReflTransGen.cases_tail ha with rfl | ⟨b, hb, c, hc, f, hf, hkind, hin⟩
  · obtain rfl := Option.some.inj (hd.symm.trans he)
    exact List.mem_cons_self
  · have hstated := (hg.mem_sortedIris hs (hids b hb) hc hf hkind).mpr ⟨a, d, hin, hd, rfl⟩
    unfold Rdf.Graph.sortedIris at hstated
    rw [Text.mem_sortByTexts, mem_objectIris, ← mem_objects_iri] at hstated
    obtain ⟨t, ht, -, -, hobject⟩ := mem_objects.mp hstated
    refine List.mem_cons_of_mem _ (List.mem_filterMap.mpr ⟨t, ht, ?_⟩)
    rw [hobject]
    rfl

/-- What is written of a root, to be read back. -/
def transcript (hs : s.Regular classes factory) (hg : StatedBy classes s ids g)
    (hids : ∀ a, Relation.ReflTransGen (s.RefersTo classes) root a → a ∈ ids) {e : Entity}
    (he : s.entity? root = some e) : Transcript where
  classes := classes
  factory := factory
  store := s
  graph := g
  ids := ids
  regular := hs
  stated := hg
  reached := Relation.ReflTransGen (s.RefersTo classes) root
  listed := hids
  closed := fun _ _ ha hab => ha.tail hab
  targets := targetsOf g e.iri
  aimed := fun _ _ ha hd => mem_targetsOf hs hg hids he ha hd

end Reading

namespace Loaded

variable {t : Transcript} {base : EntityId} {l m : Loaded}

/-- Where nothing is remembered, all is consistent with what is made from there on. -/
theorem consistent_forget (before : Loaded) : before.forget.Consistent t before.store.next := by
  have hnone : ∀ {x : EntityId} {name : String}, before.store.next ≤ x →
      before.store.class? x ≠ some name :=
    fun hx hclass => Nat.not_lt_of_le hx (Store.lt_next_of_class hclass)
  refine ⟨by simp [forget], ?_, ⟨?_, ?_, ?_, ?_⟩, Nat.le_refl _⟩
  · intro x hx hnext
    exact absurd hnext (Nat.not_lt_of_le hx)
  · intro x hx name hname
    exact absurd hname (hnone hx)
  · intro x y hx hxnext
    exact absurd hxnext (Nat.not_lt_of_le hx)
  · intro x hx name y hy
    exact absurd (Store.lt_next_of_mem_items hy) (Nat.not_lt_of_le hx)
  · intro y hy name hname
    exact absurd hname (hnone hy)

section Mirror

variable (hm : m.Consistent t base) (hfilled : ∀ a x e, m.image? t a = some x →
  t.store.entity? a = some e → ∀ f ∈ t.classes.fields e.className, m.Filled t a x f)

include hm hfilled

/-- References between entities that stand for others are those between the latter. -/
theorem mem_items_iff {a b x y : EntityId} {e : Entity} (hx : m.image? t a = some x)
    (hy : m.image? t b = some y) (he : t.store.entity? a = some e) {f : EntityField}
    (hf : f ∈ t.classes.fields e.className) :
    .entity y ∈ m.store.items x f.name ↔ .entity b ∈ t.store.items a f.name := by
  obtain ⟨written, loaded, hwritten, hloaded, hmirrors⟩ := hfilled a x e hx he f hf
  rw [Store.items_of_content hwritten, Store.items_of_content hloaded]
  constructor
  · intro h
    obtain ⟨c, hc, hin⟩ := hmirrors.of_mem_items h
    rwa [hm.image_inj hy hc]
  · intro h
    obtain ⟨z, hz, hin⟩ := hmirrors.mem_items h
    rwa [Option.some.inj (hy.symm.trans hz)]

theorem refersBy_iff {a b x y : EntityId} (hx : m.image? t a = some x) (hy : m.image? t b = some y)
    {r : String} : m.store.RefersBy t.classes x r y ↔ t.store.RefersBy t.classes a r b := by
  obtain ⟨e, he, -⟩ := image?_isSome hx
  have hloaded := hm.class_of_image hx he
  have hwritten : t.store.class? a = some e.className := by
    rw [Store.class?, he]
    rfl
  constructor
  · rintro ⟨name, hname, f, hf, hkind, hinverse, hin⟩
    obtain rfl := Option.some.inj (hname.symm.trans hloaded)
    exact ⟨_, hwritten, f, hf, hkind, hinverse, (mem_items_iff hm hfilled hx hy he hf).mp hin⟩
  · rintro ⟨name, hname, f, hf, hkind, hinverse, hin⟩
    obtain rfl := Option.some.inj (hname.symm.trans hwritten)
    exact ⟨_, hloaded, f, hf, hkind, hinverse, (mem_items_iff hm hfilled hx hy he hf).mpr hin⟩

omit hm in
/-- Where one entity is met and has its fields filled, so has all that it reaches. -/
theorem exists_image_of_reaches {a b x : EntityId} (hx : m.image? t a = some x)
    (hpath : Relation.ReflTransGen (t.store.RefersTo t.classes) a b) :
    ∃ y, m.image? t b = some y := by
  induction hpath with
  | refl => exact ⟨x, hx⟩
  | tail _ hlink ih =>
      obtain ⟨y, hy⟩ := ih
      obtain ⟨e, he, f, hf, -, hin⟩ := hlink
      obtain ⟨written, loaded, hwritten, -, hmirrors⟩ := hfilled _ y e hy he f hf
      rw [Store.items_of_content hwritten] at hin
      obtain ⟨z, hz, -⟩ := hmirrors.mem_items hin
      exact ⟨z, hz⟩

/-- **States in which all is filled mirror what was written.** -/
theorem mirrored {root x : EntityId} (hroot : m.image? t root = some x)
    (hreached : t.reached = Relation.ReflTransGen (t.store.RefersTo t.classes) root) :
    Mirrored t.classes t.store root base (fun a => (m.image? t a).getD 0) m.store := by
  have himage : ∀ a, Relation.ReflTransGen (t.store.RefersTo t.classes) root a →
      m.image? t a = some ((m.image? t a).getD 0) := by
    intro a ha
    obtain ⟨y, hy⟩ := exists_image_of_reaches hfilled hroot ha
    rw [hy, Option.getD_some]
  have hmet : ∀ {a y}, m.image? t a = some y →
      Relation.ReflTransGen (t.store.RefersTo t.classes) root a ∧ y = (m.image? t a).getD 0 := by
    intro a y hy
    obtain ⟨e, he, -⟩ := image?_isSome hy
    have ha := (hm.of_image hy he).1
    rw [hreached] at ha
    exact ⟨ha, by rw [hy, Option.getD_some]⟩
  refine ⟨?_, ?_, ?_, ?_⟩
  · intro a e ha he y hy
    obtain ⟨-, hbase, hkey⟩ := hm.of_image (himage a ha) he
    refine ⟨fun heq => ?_, fun heq => heq ▸ hkey⟩
    have hclass : ∀ {z}, m.store.key? z = some e.key → m.store.class? z = some e.className := by
      intro z hz
      rw [Store.class?_eq, hz]
      rfl
    exact hm.linked.distinct _ _ hy (Store.lt_next_of_class (hclass heq)) hbase
      (Store.lt_next_of_class (hclass hkey)) (by rw [Store.same, heq, hkey]; simp)
  · intro y
    constructor
    · rintro ⟨hy, hnext⟩
      obtain ⟨a, ha⟩ := hm.exists_image hy hnext
      exact ⟨a, (hmet ha).1, (hmet ha).2⟩
    · rintro ⟨a, ha, rfl⟩
      obtain ⟨e, he, -⟩ := image?_isSome (himage a ha)
      exact ⟨(hm.of_image (himage a ha) he).2.1,
        Store.lt_next_of_class (hm.class_of_image (himage a ha) he)⟩
  · intro a e ha he f hf
    obtain ⟨before, after, hbefore, hafter, hmirrors⟩ := hfilled a _ e (himage a ha) he f hf
    exact ⟨before, after, hbefore, hafter, hmirrors.mono fun b y hy => (hmet hy).2⟩
  · intro a e ha he r hr
    have hx := himage a ha
    obtain ⟨members, hmembers, hiff⟩ :=
      hm.linked.inverse _ (hm.of_image hx he).2.1 e.className (hm.class_of_image hx he) r hr
    refine ⟨members, hmembers, fun item => ?_⟩
    rw [hiff]
    constructor
    · rintro ⟨z, hz, rfl, hrefers⟩
      obtain ⟨name, hname, -⟩ := id hrefers
      obtain ⟨b, hb⟩ := hm.exists_image hz (Store.lt_next_of_class hname)
      obtain ⟨hb', heq⟩ := hmet hb
      exact ⟨b, hb', (refersBy_iff hm hfilled hb hx).mp hrefers, by rw [← heq]⟩
    · rintro ⟨b, hb, hrefers, rfl⟩
      have hz := himage b hb
      obtain ⟨d, hd, -⟩ := image?_isSome hz
      exact ⟨_, (hm.of_image hz hd).2.1, rfl, (refersBy_iff hm hfilled hz hx).mpr hrefers⟩

end Mirror

end Loaded

/-! ### Writing, then loading -/

/--
**Reading undoes writing.**

The entities of the store have different IRIs, their classes keep the rules of generated
classes, and their attributes hold what they are declared for.  Writing any one of them
to a new target ends without a failure, and so does loading it from the graph by the IRI
of its class and its own, whatever was loaded before.  Among what is loaded there is one
entity for each that the root reaches by its fields, with the same class and IRI, and no
other.  Its fields mirror those written: values are the same, arrays have their values
once and sorted by their texts, and references lead to what stands for the same entities.
Its inverse collections hold the loaded entities that refer to it.
-/
theorem load_of_write {classes : EntityClasses} {factory : EntityFactory} {s : Store}
    (hs : s.Regular classes factory) {root : EntityId} {e : Entity}
    (he : s.entity? root = some e) {classIri : Iri}
    (hclass : classes.iri? e.className = some classIri) (before : Loaded) :
    ∃ (target : EntityTarget) (image : EntityId → EntityId) (after : Loaded),
      EntityTarget.write {} classes s [root] = (target, none) ∧
      ((EntitySource.mk classes target.graph (some factory)).load classIri e.iri).run.run before =
        (.ok (image root), after) ∧
      Mirrored classes s root before.store.next image after.store := by
  obtain ⟨target, hwrite, ids, hg, hids⟩ :=
    exists_statedBy hs (Store.entity?_isSome_iff.mp ⟨e, he⟩)
  obtain ⟨own, hown, hcreator⟩ := (hs.declared root e he).registered
  obtain rfl := Option.some.inj (hclass.symm.trans hown)
  have hpending : before.forget.pending (transcript hs hg hids he) ≤ target.graph.size + 1 := by
    refine Nat.le_trans (List.length_filter_le ..) ?_
    exact Nat.succ_le_succ (List.length_filterMap_le ..)
  obtain ⟨x, after, hrun, hm, hgrows, hx⟩ :=
    @Loaded.resolves_within (transcript hs hg hids he) before.store.next (target.graph.size + 1)
      before.forget root e classIri e.className (Loaded.consistent_forget before) .refl he hcreator
      (by simp [EntityClasses.isBelow]) hpending
  refine ⟨target, fun a => (after.image? (transcript hs hg hids he) a).getD 0, after, hwrite,
    ?_, ?_⟩
  · have hroot : (after.image? (transcript hs hg hids he) root).getD 0 = x := by
      rw [hx, Option.getD_some]
    simp only [hroot]
    exact hrun
  · refine Loaded.mirrored hm (fun a y d hy hd f hf => ?_) hx rfl
    exact hgrows.fresh a y d (by simp [Loaded.image?, Loaded.forget]) hy hd f hf

/-! ### A study of two persons -/

namespace Study

/-- The nicknames of a person. -/
def nicknames : EntityField :=
  { name := "nicknames", kind := .array, predicate := ⟨"x:nickname"⟩, type := some .text }

/-- The persons that a person knows. -/
def contacts : EntityField :=
  { name := "contacts", kind := .collection, predicate := ⟨"x:contact"⟩, range := ⟨"x:Person"⟩ }

/-- The person that advises a student, who keeps the students. -/
def advisor : EntityField :=
  { name := "advisor", kind := .object, predicate := ⟨"x:advisor"⟩, range := ⟨"x:Person"⟩,
    inverse := some "students" }

/-- Persons, and students below them. -/
def classes : EntityClasses :=
  .ofList [{ name := "Person", iri := some ⟨"x:Person"⟩, fields := [nicknames, contacts],
             inverses := ["students"] },
    { name := "Student", bases := ["Person"], iri := some ⟨"x:Student"⟩, fields := [advisor] }]

/-- Makes persons and students. -/
def factory : EntityFactory := ⟨[(⟨"x:Person"⟩, "Person"), (⟨"x:Student"⟩, "Student")]⟩

/-- A student, whose nicknames are not sorted and have one twice. -/
def alice : Entity where
  className := "Student"
  iri := ⟨"x:alice"⟩
  attributes := [
    ("nicknames", .array (["b", "a", "b"].map fun text => .native (.value (.text text)))),
    ("contacts", .set []), ("students", .set []), ("advisor", .single (.entity 1))]

/-- The advisor, who knows the student and himself. -/
def bob : Entity where
  className := "Person"
  iri := ⟨"x:bob"⟩
  attributes := [("nicknames", .array []), ("contacts", .set [.entity 0, .entity 1]),
    ("students", .set [.entity 0])]

/-- Both persons. -/
def persons : Store := ⟨[alice, bob]⟩

theorem fields_eq : classes.fields "Student" = [nicknames, contacts, advisor] ∧
    classes.fields "Person" = [nicknames, contacts] := by
  decide +kernel

theorem inverses_eq : classes.inverses "Student" = ["students"] ∧
    classes.inverses "Person" = ["students"] := by
  decide +kernel

theorem mem_fields {name : String} (hname : name ∈ ["Person", "Student"]) {f : EntityField}
    (hf : f ∈ classes.fields name) : f ∈ [nicknames, contacts, advisor] := by
  simp only [List.mem_cons, List.not_mem_nil, or_false] at hname
  rcases hname with rfl | rfl
  · rw [fields_eq.2] at hf
    exact List.mem_append_left [advisor] hf
  · rwa [fields_eq.1] at hf

/-- Both classes keep the rules. -/
theorem classes_regular {name : String} (hname : name ∈ ["Person", "Student"]) :
    classes.Regular factory name := by
  have hreserved : ∀ f ∈ [nicknames, contacts, advisor],
      f.predicate ≠ rdfType ∧ f.predicate ≠ rdfs "label" := by decide +kernel
  have hdatatype : ∀ f ∈ [nicknames, contacts, advisor], f.datatype = none := by decide +kernel
  refine ⟨?_, ?_, ?_, fun f hf => hreserved f (mem_fields hname hf), ?_⟩
  · simp only [List.mem_cons, List.not_mem_nil, or_false] at hname
    rcases hname with rfl | rfl
    · exact ⟨⟨"x:Person"⟩, by decide +kernel, by decide +kernel⟩
    · exact ⟨⟨"x:Student"⟩, by decide +kernel, by decide +kernel⟩
  · simp only [List.mem_cons, List.not_mem_nil, or_false] at hname
    rcases hname with rfl | rfl <;> exact ⟨by decide +kernel, by decide +kernel⟩
  · simp only [List.mem_cons, List.not_mem_nil, or_false] at hname
    rcases hname with rfl | rfl <;> decide +kernel
  · intro f hf _ kind hkind
    rw [hdatatype f (mem_fields hname hf)] at hkind
    exact (Option.some.inj hkind).symm

theorem eq_of_entity? {a : EntityId} {e : Entity} (he : persons.entity? a = some e) :
    (a = 0 ∧ e = alice) ∨ (a = 1 ∧ e = bob) := by
  rcases a with _ | _ | a
  · exact Or.inl ⟨rfl, (Option.some.inj he).symm⟩
  · exact Or.inr ⟨rfl, (Option.some.inj he).symm⟩
  · simp [Store.entity?, persons] at he

theorem nicknames_admitsValue (text : String) :
    nicknames.AdmitsValue (.native (.value (.text text))) :=
  ⟨.text text, .text, rfl, rfl, by simp, rfl⟩

/-- Both persons may be referred to by both fields of references. -/
theorem admitsEntity {e : Entity} (he : e ∈ [alice, bob]) {f : EntityField}
    (hf : f ∈ [contacts, advisor]) : f.AdmitsEntity classes factory e := by
  have hrange : ∀ f ∈ [contacts, advisor], factory.creator? f.range = some "Person" := by
    decide +kernel
  have hbelow : ∀ e ∈ [alice, bob], classes.isBelow e.className "Person" = true := by
    decide +kernel
  have hinverse : ∀ e ∈ [alice, bob], ∀ f ∈ [contacts, advisor], ∀ r ∈ f.inverse,
      r ∈ classes.inverses e.className := by decide +kernel
  exact ⟨⟨"Person", hrange f hf, hbelow e he⟩, hinverse e he f hf⟩

theorem persons_fields {a : EntityId} {e : Entity} (he : persons.entity? a = some e)
    {f : EntityField} (hf : f ∈ classes.fields e.className) :
    ∃ content, e.content? f.name = some content ∧ persons.Admits classes factory f content := by
  rcases eq_of_entity? he with ⟨-, rfl⟩ | ⟨-, rfl⟩
  · rw [show alice.className = "Student" from rfl, fields_eq.1] at hf
    simp only [List.mem_cons, List.not_mem_nil, or_false] at hf
    rcases hf with rfl | rfl | rfl
    · exact ⟨_, rfl, _, rfl, by simp [nicknames_admitsValue]⟩
    · exact ⟨_, rfl, _, rfl, by simp⟩
    · exact ⟨_, rfl, _, rfl, .inr ⟨1, bob, rfl, rfl, admitsEntity (by simp) (by simp)⟩⟩
  · rw [show bob.className = "Person" from rfl, fields_eq.2] at hf
    simp only [List.mem_cons, List.not_mem_nil, or_false] at hf
    rcases hf with rfl | rfl
    · exact ⟨_, rfl, _, rfl, by simp⟩
    · refine ⟨_, rfl, _, rfl, ?_⟩
      intro item hitem
      simp only [List.mem_cons, List.not_mem_nil, or_false] at hitem
      rcases hitem with rfl | rfl
      · exact ⟨0, alice, rfl, rfl, admitsEntity (by simp) (by simp)⟩
      · exact ⟨1, bob, rfl, rfl, admitsEntity (by simp) (by simp)⟩

/-- The persons hold what their attributes are declared for. -/
theorem persons_regular : persons.Regular classes factory := by
  refine ⟨?_, ?_, fun a e he f hf => persons_fields he hf, ?_⟩
  · intro a b d e hd he hiri
    rcases eq_of_entity? hd with ⟨rfl, rfl⟩ | ⟨rfl, rfl⟩ <;>
      rcases eq_of_entity? he with ⟨rfl, rfl⟩ | ⟨rfl, rfl⟩ <;>
      first | rfl | simp [alice, bob] at hiri
  · intro a e he
    rcases eq_of_entity? he with ⟨-, rfl⟩ | ⟨-, rfl⟩ <;>
      exact classes_regular (by simp [alice, bob])
  · intro a e he name hname
    rcases eq_of_entity? he with ⟨-, rfl⟩ | ⟨-, rfl⟩
    · rw [show alice.className = "Student" from rfl, inverses_eq.1, List.mem_singleton] at hname
      subst hname
      exact ⟨[], rfl, by simp⟩
    · rw [show bob.className = "Person" from rfl, inverses_eq.2, List.mem_singleton] at hname
      subst hname
      exact ⟨[.entity 0], rfl, by simp [persons, Store.next]⟩

/-- A round trip through two entities that refer to each other. -/
theorem load_of_write_persons :
    (persons.Regular classes factory ∧ persons.entity? 0 = some alice ∧
      classes.iri? alice.className = some ⟨"x:Student"⟩) ∧
    ∃ (target : EntityTarget) (image : EntityId → EntityId) (after : Loaded),
      EntityTarget.write {} classes persons [0] = (target, none) ∧
      ((EntitySource.mk classes target.graph (some factory)).load ⟨"x:Student"⟩
        alice.iri).run.run {} = (.ok (image 0), after) ∧
      (∀ x, after.store.key? x = some alice.key ↔ x = image 0) ∧
      ∃ students, after.store.content? (image 1) "students" = some (.set students) ∧
        .entity (image 0) ∈ students := by
  have hclass : classes.iri? alice.className = some ⟨"x:Student"⟩ := by decide +kernel
  obtain ⟨target, image, after, hwrite, hload, hmirrored⟩ :=
    @load_of_write _ _ _ persons_regular 0 alice rfl _ hclass {}
  have hadvised : persons.RefersTo classes 0 1 :=
    ⟨alice, rfl, advisor, by decide +kernel, rfl, by decide +kernel⟩
  refine ⟨⟨persons_regular, rfl, hclass⟩, target, image, after, hwrite, hload, ?_, ?_⟩
  · exact fun x => hmirrored.entity 0 alice .refl rfl x (Nat.zero_le x)
  · obtain ⟨students, hstudents, hiff⟩ :=
      hmirrored.inverse 1 bob (.single hadvised) rfl "students" (by decide +kernel)
    refine ⟨students, hstudents, (hiff _).mpr ⟨0, .refl, ?_, rfl⟩⟩
    exact ⟨"Student", rfl, advisor, by decide +kernel, rfl, rfl, by decide +kernel⟩

end Study

end OntoCode

/-
What the graph tells about an entity that was written to it.

Every statement has the IRI of its entity as subject, and no two entities share one.
The predicates of an entity are apart from each other and from those of its type and
label.  So what the graph has for an entity and one of its predicates comes from one
field and from nothing else: reading it sees the values of this field, or the IRIs of
the entities it refers to.
-/
import OntoCode.Proofs.Attributes
import OntoCode.Proofs.Literals
import OntoCode.Proofs.Sorting
import OntoCode.Proofs.Steps
import OntoCode.Proofs.Writing

namespace OntoCode

open OntoCode.Rdf OntoCode.Rdf.Graph OntoCode.Text

/-! ### The steps of an entity -/

namespace Store

variable {classes : EntityClasses} {factory : EntityFactory} {s : Store}

/-- What writing an entity consists of: its type, its label, its fields, and those that refer to
it. -/
theorem mem_entitySteps {a : EntityId} {e : Entity} (he : s.entity? a = some e)
    {step : WritingStep} :
    step ∈ s.entitySteps classes a ↔
      (∃ iri, classes.iri? e.className = some iri ∧
        step = .state ⟨.iri e.iri, rdfType, .iri iri⟩) ∨
      (∃ label, classes.label? e.className = some label ∧
        step = .state ⟨.iri e.iri, rdfs "label", .literal (Literal.ofText label none none)⟩) ∨
      (∃ f ∈ classes.fields e.className, step ∈ s.fieldSteps e f) ∨
      ∃ inverse ∈ classes.inverses e.className, step ∈ e.inverseSteps inverse := by
  have hlineage : (step ∈ (classes.lineage e.className).reverse.flatMap fun c =>
        c.fields.flatMap (s.fieldSteps e) ++ c.inverses.flatMap e.inverseSteps) ↔
      (∃ f ∈ classes.fields e.className, step ∈ s.fieldSteps e f) ∨
        ∃ inverse ∈ classes.inverses e.className, step ∈ e.inverseSteps inverse := by
    simp only [EntityClasses.fields, EntityClasses.inverses, List.mem_flatMap, List.mem_append]
    constructor
    · rintro ⟨c, hc, ⟨f, hf, h⟩ | ⟨name, hname, h⟩⟩
      · exact Or.inl ⟨f, ⟨c, hc, hf⟩, h⟩
      · exact Or.inr ⟨name, ⟨c, hc, hname⟩, h⟩
    · rintro (⟨f, ⟨c, hc, hf⟩, h⟩ | ⟨name, ⟨c, hc, hname⟩, h⟩)
      · exact ⟨c, hc, Or.inl ⟨f, hf, h⟩⟩
      · exact ⟨c, hc, Or.inr ⟨name, hname, h⟩⟩
  unfold entitySteps
  rw [he]
  simp only [List.mem_append, hlineage, List.mem_map, Option.mem_toList, or_assoc, eq_comm]

section Items

variable (hs : s.Regular classes factory) {a : EntityId} {e : Entity} (he : s.entity? a = some e)
  {f : EntityField} (hf : f ∈ classes.fields e.className)

include hs he hf

/-- A field of values holds values. -/
theorem Regular.items_of_value (hkind : f.kind.isReference = false) :
    ∀ item ∈ s.items a f.name, item = .null ∨ f.AdmitsValue item := by
  obtain ⟨content, -, hitems, hadmits⟩ := hs.exists_content he hf
  intro item hitem
  rw [hitems] at hitem
  unfold Admits at hadmits
  cases hk : f.kind <;> simp only [hk] at hadmits hkind
  · obtain ⟨held, rfl, hheld⟩ := hadmits
    rw [List.mem_singleton.mp hitem]
    exact hheld
  · obtain ⟨held, rfl, hheld⟩ := hadmits
    exact Or.inr (hheld item hitem)
  · simp [PropertyKind.isReference] at hkind
  · simp [PropertyKind.isReference] at hkind

/-- A field of references holds entities of the store. -/
theorem Regular.items_of_reference (hkind : f.kind.isReference = true) :
    ∀ item ∈ s.items a f.name, item = .null ∨
      ∃ b d, item = .entity b ∧ s.entity? b = some d ∧ f.AdmitsEntity classes factory d := by
  obtain ⟨content, -, hitems, hadmits⟩ := hs.exists_content he hf
  intro item hitem
  rw [hitems] at hitem
  unfold Admits at hadmits
  cases hk : f.kind <;> simp only [hk] at hadmits hkind
  · simp [PropertyKind.isReference] at hkind
  · simp [PropertyKind.isReference] at hkind
  · obtain ⟨held, rfl, hheld⟩ := hadmits
    rw [List.mem_singleton.mp hitem]
    exact hheld
  · obtain ⟨held, rfl, hheld⟩ := hadmits
    exact Or.inr (hheld item hitem)

/-- A field of values is written as statements of its values. -/
theorem Regular.mem_fieldSteps_of_value (hkind : f.kind.isReference = false) {step : WritingStep} :
    step ∈ s.fieldSteps e f ↔ ∃ v, .native (.value v) ∈ s.items a f.name ∧
      step = .state ⟨.iri e.iri, f.predicate, .literal (Literal.ofValue v f.datatype)⟩ := by
  have hitems := hs.items_of_value he hf hkind
  rw [items_eq he] at hitems ⊢
  simp only [fieldSteps, hkind, Bool.false_eq_true, if_false, valueSteps, List.mem_map,
    List.mem_filterMap]
  constructor
  · rintro ⟨l, ⟨item, hitem, hl⟩, rfl⟩
    rcases hitems item hitem with rfl | ⟨v, type, rfl, -⟩
    · simp [literal?] at hl
    · exact ⟨v, hitem, by rw [← Option.some.inj hl]⟩
  · rintro ⟨v, hv, rfl⟩
    exact ⟨Literal.ofValue v f.datatype, ⟨.native (.value v), hv, rfl⟩, rfl⟩

/-- A field of references is written as statements of their IRIs, and the entities are visited. -/
theorem Regular.mem_fieldSteps_of_reference (hkind : f.kind.isReference = true)
    {step : WritingStep} :
    step ∈ s.fieldSteps e f ↔ ∃ b d, .entity b ∈ s.items a f.name ∧ s.entity? b = some d ∧
      (step = .state ⟨.iri e.iri, f.predicate, .iri d.iri⟩ ∨ step = .visit b) := by
  have hitems := hs.items_of_reference he hf hkind
  rw [items_eq he] at hitems ⊢
  simp only [fieldSteps, hkind, if_true, referenceSteps, List.mem_flatMap]
  constructor
  · rintro ⟨item, hitem, hstep⟩
    rcases hitems item hitem with rfl | ⟨b, d, rfl, hd, -⟩
    · simp at hstep
    · refine ⟨b, d, hitem, hd, ?_⟩
      simpa [hd] using hstep
  · rintro ⟨b, d, hitem, hd, hstep⟩
    refine ⟨.entity b, hitem, ?_⟩
    simpa [hd] using hstep

/-- What a field states has its predicate. -/
theorem Regular.predicate_of_field {subject object : Term} {predicate : Iri}
    (h : .state ⟨subject, predicate, object⟩ ∈ s.fieldSteps e f) : predicate = f.predicate := by
  cases hkind : f.kind.isReference with
  | false =>
      obtain ⟨v, -, heq⟩ := (hs.mem_fieldSteps_of_value he hf hkind).mp h
      rw [WritingStep.state.injEq, Triple.mk.injEq] at heq
      exact heq.2.1
  | true =>
      obtain ⟨b, d, -, -, heq | heq⟩ := (hs.mem_fieldSteps_of_reference he hf hkind).mp h
      · rw [WritingStep.state.injEq, Triple.mk.injEq] at heq
        exact heq.2.1
      · simp at heq

/-- The type of a field of values is that of the values it holds. -/
theorem Regular.type_of_value (hkind : f.kind.isReference = false) {v : Value}
    (hv : .native (.value v) ∈ s.items a f.name) : ∃ type, f.type = some type ∧
      type ∈ [ValueType.text, .integer, .boolean] ∧ v.isOf type = true := by
  rcases hs.items_of_value he hf hkind _ hv with h | ⟨w, type, h, htype, hin, hof⟩
  · simp at h
  · rw [Item.native.injEq, Native.value.injEq] at h
    exact ⟨type, htype, hin, h ▸ hof⟩

theorem Regular.ofValue_text (hkind : f.kind.isReference = false) {v : Value}
    (hv : .native (.value v) ∈ s.items a f.name) :
    (Literal.ofValue v f.datatype).text = v.lexical := by
  obtain ⟨type, htype, hin, hof⟩ := hs.type_of_value he hf hkind hv
  exact Literal.ofValue_text hin hof fun h => (hs.declared a e he).texts f hf (h ▸ htype)

theorem Regular.readAs_ofValue (hkind : f.kind.isReference = false) {v : Value}
    (hv : .native (.value v) ∈ s.items a f.name) :
    (Literal.ofValue v f.datatype).readAs f.type = .ok (.value v) := by
  obtain ⟨type, htype, hin, hof⟩ := hs.type_of_value he hf hkind hv
  rw [htype]
  exact Literal.readAs_ofValue hin hof fun h => (hs.declared a e he).texts f hf (h ▸ htype)

/-- The values of a field are told apart by the texts they are written as. -/
theorem Regular.value_inj (hkind : f.kind.isReference = false) {v w : Value}
    (hv : .native (.value v) ∈ s.items a f.name) (hw : .native (.value w) ∈ s.items a f.name)
    (h : (Literal.ofValue v f.datatype).text = (Literal.ofValue w f.datatype).text) : v = w := by
  obtain ⟨type, htype, hin, hof⟩ := hs.type_of_value he hf hkind hv
  obtain ⟨type', htype', -, hof'⟩ := hs.type_of_value he hf hkind hw
  rw [htype, Option.some.injEq] at htype'
  rw [hs.ofValue_text he hf hkind hv, hs.ofValue_text he hf hkind hw] at h
  exact Value.lexical_inj hin hof (htype' ▸ hof') h

end Items

/-- Writing those that refer to an entity visits entities of the store. -/
theorem Regular.of_mem_inverseSteps (hs : s.Regular classes factory) {a : EntityId} {e : Entity}
    (he : s.entity? a = some e) {inverse : String}
    (hinverse : inverse ∈ classes.inverses e.className) {step : WritingStep}
    (hstep : step ∈ e.inverseSteps inverse) :
    ∃ b, step = .visit b ∧ b < s.next := by
  obtain ⟨members, hcontent, hmembers⟩ := hs.inverses a e he inverse hinverse
  unfold Entity.inverseSteps at hstep
  rw [hcontent] at hstep
  obtain ⟨item, hitem, rfl⟩ := List.mem_map.mp hstep
  obtain ⟨b, rfl, hb⟩ := hmembers item hitem
  exact ⟨b, rfl, hb⟩

/-- One entity refers to another one by a field. -/
def RefersTo (classes : EntityClasses) (s : Store) (a b : EntityId) : Prop :=
  ∃ e, s.entity? a = some e ∧ ∃ f ∈ classes.fields e.className,
    f.kind.isReference = true ∧ .entity b ∈ s.items a f.name

theorem Regular.distinct_keys (hs : s.Regular classes factory) : s.Distinct := by
  intro a ha b hb hsame
  obtain ⟨d, hd⟩ := entity?_isSome_iff.mpr ha
  obtain ⟨e, he⟩ := entity?_isSome_iff.mpr hb
  have hkey : d.key = e.key := by simpa [same, key?, hd, he] using hsame
  exact hs.distinct a b d e hd he (congrArg Prod.snd hkey)

/-- Every step of an entity is a statement about it, or a visit of an entity of the store. -/
theorem Regular.step_of_entity (hs : s.Regular classes factory) {a : EntityId} {e : Entity}
    (he : s.entity? a = some e) {step : WritingStep} (hstep : step ∈ s.entitySteps classes a) :
    (∃ predicate object, step = .state ⟨.iri e.iri, predicate, object⟩) ∨
      ∃ b, step = .visit b ∧ b < s.next := by
  rcases (mem_entitySteps he).mp hstep with ⟨iri, -, rfl⟩ | ⟨label, -, rfl⟩ | ⟨f, hf, h⟩ |
    ⟨inverse, hinverse, h⟩
  · exact Or.inl ⟨_, _, rfl⟩
  · exact Or.inl ⟨_, _, rfl⟩
  · cases hkind : f.kind.isReference with
    | false =>
        obtain ⟨v, -, rfl⟩ := (hs.mem_fieldSteps_of_value he hf hkind).mp h
        exact Or.inl ⟨_, _, rfl⟩
    | true =>
        obtain ⟨b, d, -, hd, rfl | rfl⟩ := (hs.mem_fieldSteps_of_reference he hf hkind).mp h
        · exact Or.inl ⟨_, _, rfl⟩
        · exact Or.inr ⟨b, rfl, entity?_isSome_iff.mp ⟨d, hd⟩⟩
  · exact Or.inr (hs.of_mem_inverseSteps he hinverse h)

theorem Regular.writable (hs : s.Regular classes factory) {a : EntityId} (ha : a < s.next) :
    s.Writable (s.entitySteps classes a) := by
  obtain ⟨e, he⟩ := entity?_isSome_iff.mpr ha
  refine ⟨fun b hb => ?_, fun h => ?_⟩
  · rcases hs.step_of_entity he hb with ⟨_, _, h⟩ | ⟨c, h, hc⟩
    · simp at h
    · rwa [WritingStep.visit.inj h]
  · rcases hs.step_of_entity he h with ⟨_, _, h⟩ | ⟨_, h, _⟩
    · simp at h
    · simp at h

/-- Entities that are referred to are visited. -/
theorem Regular.references (hs : s.Regular classes factory) {a b : EntityId}
    (h : s.RefersTo classes a b) : References (s.entitySteps classes) a b := by
  obtain ⟨e, he, f, hf, hkind, hb⟩ := h
  refine (mem_entitySteps he).mpr (.inr (.inr (.inl ⟨f, hf, ?_⟩)))
  rcases hs.items_of_reference he hf hkind _ hb with h | ⟨c, d, hc, hd, -⟩
  · simp at h
  · refine (hs.mem_fieldSteps_of_reference he hf hkind).mpr ⟨b, d, hb, ?_, .inr rfl⟩
    rwa [Item.entity.inj hc]

/-- What an entity states by the predicate of a field comes from this field. -/
theorem Regular.mem_fieldSteps_of_state (hs : s.Regular classes factory) {a : EntityId} {e : Entity}
    (he : s.entity? a = some e) {f : EntityField} (hf : f ∈ classes.fields e.className)
    {subject object : Term}
    (h : .state ⟨subject, f.predicate, object⟩ ∈ s.entitySteps classes a) :
    .state ⟨subject, f.predicate, object⟩ ∈ s.fieldSteps e f := by
  have hclass := hs.declared a e he
  obtain ⟨htype, hlabel⟩ := hclass.reserved f hf
  rcases (mem_entitySteps he).mp h with ⟨iri, -, heq⟩ | ⟨label, -, heq⟩ | ⟨g, hg, hstep⟩ |
    ⟨inverse, hinverse, hstep⟩
  · simp [htype] at heq
  · simp [hlabel] at heq
  · -- The predicate is that of one field only.
    have hsame := (hs.predicate_of_field he hg hstep).symm
    rwa [hclass.eq_of_predicate hg hf hsame] at hstep
  · obtain ⟨b, heq, -⟩ := hs.of_mem_inverseSteps he hinverse hstep
    simp at heq

/-- What an entity states by the predicate of its type is its type. -/
theorem Regular.type_of_state (hs : s.Regular classes factory) {a : EntityId} {e : Entity}
    (he : s.entity? a = some e) {subject object : Term}
    (h : .state ⟨subject, rdfType, object⟩ ∈ s.entitySteps classes a) :
    ∃ iri, classes.iri? e.className = some iri ∧ object = .iri iri := by
  rcases (mem_entitySteps he).mp h with ⟨iri, hiri, heq⟩ | ⟨label, -, heq⟩ | ⟨f, hf, hstep⟩ |
    ⟨inverse, hinverse, hstep⟩
  · simp only [WritingStep.state.injEq, Triple.mk.injEq] at heq
    exact ⟨iri, hiri, heq.2.2⟩
  · have : rdfType ≠ rdfs "label" := by decide
    simp [this] at heq
  · have htype := ((hs.declared a e he).reserved f hf).1
    exact absurd (hs.predicate_of_field he hf hstep).symm htype
  · obtain ⟨b, heq, -⟩ := hs.of_mem_inverseSteps he hinverse hstep
    simp at heq

end Store

/-! ### Reading what was written -/

theorem exists_eq_map {α β : Type} {f : α → β} {p : α → Prop} : ∀ {l : List β},
    (∀ b ∈ l, ∃ a, p a ∧ b = f a) → ∃ as : List α, l = as.map f ∧ ∀ a ∈ as, p a := by
  intro l
  induction l with
  | nil => exact fun _ => ⟨[], rfl, by simp⟩
  | cons b rest ih =>
      intro h
      obtain ⟨a, ha, rfl⟩ := h b List.mem_cons_self
      obtain ⟨as, rfl, has⟩ := ih fun c hc => h c (List.mem_cons_of_mem _ hc)
      exact ⟨a :: as, rfl, by simpa [ha] using has⟩

/-- The only class among some candidates is the most specific one. -/
theorem mostSpecific_eq {classes : EntityClasses} {above name : String} {candidates : List String}
    (hc : ∀ c, c ∈ candidates ↔ c = name) (hbelow : classes.isBelow name above = true) :
    mostSpecific classes.isBelow above candidates = name := by
  have hown : classes.isBelow name name = true := classes.isBelow_self name
  unfold mostSpecific
  dsimp only
  cases hfind : (candidates.filter (classes.isBelow · above)).find? fun c =>
      (candidates.filter (classes.isBelow · above)).all fun other => classes.isBelow c other with
  | some found =>
      have hfound := List.mem_of_find?_eq_some hfind
      rw [List.mem_filter, hc] at hfound
      exact hfound.1
  | none =>
      exfalso
      refine List.find?_eq_none.mp hfind name ?_ ?_
      · exact List.mem_filter.mpr ⟨(hc _).mpr rfl, hbelow⟩
      · refine List.all_eq_true.mpr fun other hother => ?_
        rw [List.mem_filter, hc] at hother
        rw [hother.1]
        exact hown

section Reading

variable {classes : EntityClasses} {factory : EntityFactory} {s : Store}

/-- Each statement of a graph is one that some entity of a list makes, and all these are there. -/
structure StatedBy (classes : EntityClasses) (s : Store) (ids : List EntityId) (g : Graph) :
    Prop where
  distinct : g.Distinct
  sound : ∀ t ∈ g.triples, ∃ a ∈ ids, .state t ∈ s.entitySteps classes a
  complete : ∀ a ∈ ids, ∀ t, .state t ∈ s.entitySteps classes a → g.contains t = true

variable {ids : List EntityId} {g : Graph} (hs : s.Regular classes factory)
  (hg : StatedBy classes s ids g) {a : EntityId} (ha : a ∈ ids) {e : Entity}
  (he : s.entity? a = some e)

include hs hg he

/-- The objects that an entity has for a predicate are those that it states. -/
theorem StatedBy.of_mem_objects {p : Iri} {o : Term} (ho : o ∈ g.objects (.iri e.iri) p) :
    .state ⟨.iri e.iri, p, o⟩ ∈ s.entitySteps classes a := by
  obtain ⟨t, ht, hsubject, hpredicate, hobject⟩ := mem_objects.mp ho
  have hsub : t.subject = .iri e.iri := Term.same_iri.mp hsubject
  obtain ⟨b, -, hstep⟩ := hg.sound t ht
  have hb : ∃ d, s.entity? b = some d := by
    cases hd : s.entity? b with
    | some d => exact ⟨d, rfl⟩
    | none => simp [Store.entitySteps, hd] at hstep
  obtain ⟨d, hd⟩ := hb
  have hiri : d.iri = e.iri := by
    rcases hs.step_of_entity hd hstep with ⟨_, _, heq⟩ | ⟨_, heq, _⟩
    · rw [WritingStep.state.injEq] at heq
      have : t.subject = .iri d.iri := by rw [heq]
      rw [hsub] at this
      exact (Term.iri.inj this).symm
    · simp at heq
  have heq : t = ⟨.iri e.iri, p, o⟩ := by
    rw [← hsub, ← hpredicate, ← hobject]
  rw [← hs.distinct b a d e hd he hiri, ← heq]
  exact hstep

include ha

/-- An entity has one type, which is the IRI of its class. -/
theorem StatedBy.mem_types {i : Iri} :
    i ∈ g.objectIris (.iri e.iri) rdfType ↔ classes.iri? e.className = some i := by
  rw [mem_objectIris, ← mem_objects_iri]
  constructor
  · intro h
    obtain ⟨j, hj, heq⟩ := hs.type_of_state he (hg.of_mem_objects hs he h)
    rw [Term.iri.inj heq, hj]
  · intro h
    exact mem_objects_iri.mpr (hg.complete a ha _
      ((Store.mem_entitySteps he).mpr (.inl ⟨i, h, rfl⟩)))

/-- The class that is made for an entity is its own, wherever it may stand. -/
theorem StatedBy.choose_eq {expected : Iri} {above : String}
    (hexpected : factory.creator? expected = some above)
    (hbelow : classes.isBelow e.className above = true) :
    factory.choose classes g expected e.iri = .ok e.className := by
  obtain ⟨own, hown, hcreator⟩ := (hs.declared a e he).registered
  have hcandidates : ∀ c, c ∈ (factory.knownTypes g e.iri).filterMap factory.creator? ↔
      c = e.className := by
    intro c
    simp only [EntityFactory.knownTypes, List.mem_filterMap, List.mem_filter, mem_sortByTexts,
      hg.mem_types hs ha he, hown, Option.some.injEq]
    constructor
    · rintro ⟨i, ⟨rfl, -⟩, hc⟩
      exact Option.some.inj (hc.symm.trans hcreator)
    · rintro rfl
      exact ⟨own, ⟨rfl, by simp [hcreator]⟩, hcreator⟩
  unfold EntityFactory.choose EntityFactory.creator
  rw [hexpected]
  exact congrArg Except.ok (mostSpecific_eq hcandidates hbelow)

variable {f : EntityField} (hf : f ∈ classes.fields e.className)

include hf

/-- **Read as the references of a field are those that it has.** -/
theorem StatedBy.mem_sortedIris (hkind : f.kind.isReference = true) {i : Iri} :
    i ∈ g.sortedIris e.iri f.predicate ↔
      ∃ b d, .entity b ∈ s.items a f.name ∧ s.entity? b = some d ∧ d.iri = i := by
  unfold Rdf.Graph.sortedIris
  rw [mem_sortByTexts, mem_objectIris, ← mem_objects_iri]
  constructor
  · intro h
    have hstep := hs.mem_fieldSteps_of_state he hf (hg.of_mem_objects hs he h)
    obtain ⟨b, d, hb, hd, heq | heq⟩ := (hs.mem_fieldSteps_of_reference he hf hkind).mp hstep
    · simp only [WritingStep.state.injEq, Triple.mk.injEq, true_and, Term.iri.injEq] at heq
      exact ⟨b, d, hb, hd, heq.symm⟩
    · simp at heq
  · rintro ⟨b, d, hb, hd, rfl⟩
    refine mem_objects_iri.mpr (hg.complete a ha _ ((Store.mem_entitySteps he).mpr ?_))
    exact .inr (.inr (.inl ⟨f, hf,
      (hs.mem_fieldSteps_of_reference he hf hkind).mpr ⟨b, d, hb, hd, .inl rfl⟩⟩))

/-- The literals of a field of values are those of its values. -/
theorem StatedBy.mem_literals (hkind : f.kind.isReference = false) {l : Literal} :
    l ∈ g.literals (.iri e.iri) f.predicate ↔
      ∃ v, .native (.value v) ∈ s.items a f.name ∧ l = Literal.ofValue v f.datatype := by
  have hforward : ∀ {o : Term}, o ∈ g.objects (.iri e.iri) f.predicate →
      ∃ v, .native (.value v) ∈ s.items a f.name ∧ o = .literal (Literal.ofValue v f.datatype) := by
    intro o ho
    have hstep := hs.mem_fieldSteps_of_state he hf (hg.of_mem_objects hs he ho)
    obtain ⟨v, hv, heq⟩ := (hs.mem_fieldSteps_of_value he hf hkind).mp hstep
    simp only [WritingStep.state.injEq, Triple.mk.injEq, true_and] at heq
    exact ⟨v, hv, heq⟩
  rw [Rdf.Graph.mem_literals]
  constructor
  · intro h
    obtain ⟨v, hv, heq⟩ := hforward h
    exact ⟨v, hv, Term.literal.inj heq⟩
  · rintro ⟨v, hv, rfl⟩
    have hcontains := hg.complete a ha _ ((Store.mem_entitySteps he).mpr
      (.inr (.inr (.inl ⟨f, hf, (hs.mem_fieldSteps_of_value he hf hkind).mpr ⟨v, hv, rfl⟩⟩))))
    obtain ⟨o, ho, hsame⟩ := exists_mem_objects hcontains
    -- Another value with this text would be the same literal, but there is none.
    obtain ⟨w, hw, rfl⟩ := hforward ho
    rw [hs.value_inj he hf hkind hv hw (Term.text_of_same hsame)]
    exact ho

/-- **Read as the values of a field are its values, each once and sorted by their texts.** -/
theorem StatedBy.exists_values (hkind : f.kind.isReference = false) :
    ∃ values : List Value, g.values e.iri f.predicate f.type = .ok (values.map .value) ∧
      values.Pairwise (fun v w => v.lexical < w.lexical) ∧
      ∀ v, v ∈ values ↔ .native (.value v) ∈ s.items a f.name := by
  have hmem : ∀ l, l ∈ g.sortedLiterals e.iri f.predicate ↔
      ∃ v, .native (.value v) ∈ s.items a f.name ∧ l = Literal.ofValue v f.datatype := by
    intro l
    unfold Rdf.Graph.sortedLiterals
    rw [mem_sortByTexts, hg.mem_literals hs ha he hf hkind]
  obtain ⟨values, hvalues, hheld⟩ := exists_eq_map fun l hl => (hmem l).mp hl
  have htext : ∀ v ∈ values, (Literal.ofValue v f.datatype).text = v.lexical :=
    fun v hv => hs.ofValue_text he hf hkind (hheld v hv)
  refine ⟨values, ?_, ?_, ?_⟩
  · have hread : values.mapM ((fun l => l.readAs f.type) ∘ fun v => Literal.ofValue v f.datatype) =
        .ok (values.map .value) :=
      mapM_ok fun v hv => hs.readAs_ofValue he hf hkind (hheld v hv)
    unfold Rdf.Graph.values
    rw [hvalues, List.mapM_map, hread]
    rfl
  · have hsorted := sortByTexts_sorted
      (fun l : Literal => [l.text, (l.datatype.map (·.text)).getD "", l.language.getD ""])
      (g.literals (.iri e.iri) f.predicate)
    have hdistinct : (g.sortedLiterals e.iri f.predicate).Pairwise
        fun l m => (Term.literal l).same (.literal m) = false :=
      ((sortByTexts_perm _ _).pairwise_iff fun {l m} h => by rwa [Term.same_comm]).mpr
        (hg.distinct.literals_pairwise _ _)
    have hboth := hdistinct.and hsorted
    rw [hvalues, List.pairwise_map] at hboth
    refine hboth.imp_of_mem ?_
    rintro v w hv hw ⟨hne, hle⟩
    rw [notAfter_cons, htext v hv, htext w hw] at hle
    rcases hle with hlt | ⟨heq, -⟩
    · exact hlt
    · rw [hs.value_inj he hf hkind (hheld v hv) (hheld w hw)
        (by rw [htext v hv, htext w hw, heq])] at hne
      simp at hne
  · intro v
    refine ⟨hheld v, fun hv => ?_⟩
    have hl := (hmem _).mpr ⟨v, hv, rfl⟩
    rw [hvalues] at hl
    obtain ⟨w, hw, heq⟩ := List.mem_map.mp hl
    rwa [← hs.value_inj he hf hkind (hheld w hw) hv (by rw [heq])]

end Reading

/-! ### The graph of what a root reaches -/

/-- **Writing a root ends, and the graph states what the entities state that the root refers
to.** -/
theorem exists_statedBy {classes : EntityClasses} {factory : EntityFactory} {s : Store}
    (hs : s.Regular classes factory) {root : EntityId} (hroot : root < s.next) :
    ∃ t', EntityTarget.write {} classes s [root] = (t', none) ∧
      ∃ ids, StatedBy classes s ids t'.graph ∧
        ∀ a, Relation.ReflTransGen (s.RefersTo classes) root a → a ∈ ids := by
  obtain ⟨trace, t', hrun, hruns, htrace, -, hgraph⟩ :=
    @EntityTarget.exists_closure s (s.entitySteps classes) {} [root] hs.distinct_keys
      (fun a ha => hs.writable ha) (by simpa using hroot) (by simp) (by simp)
  refine ⟨t', hrun, trace, ⟨hruns.distinct_graph .nil, ?_, ?_⟩, ?_⟩
  · intro t ht
    rcases hruns.mem_graph t ht with h | h | h
    · simp at h
    · simp at h
    · exact h
  · intro a ha t hstep
    exact (hgraph t).mpr (.inr ⟨a, ha, t, hstep, Triple.same_self t⟩)
  · intro a hpath
    refine (htrace a).mpr ⟨⟨root, by simp, ?_⟩, by simp⟩
    exact Relation.ReflTransGen.mono (fun b c h => hs.references h) _ _ hpath

end OntoCode

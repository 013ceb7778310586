/-
Links stay in step with fields.

An inverse collection holds the entities that refer to its owner by a field with that
inverse.  `LinkedFrom` says so of all entities from some number on, which are those
that loading has made.  It is kept by all that loading does to the store: adding an
entity, filling a field with values, and putting an entity into a field.

Putting one changes the field first and the collection at the other end after that,
so between the two it does not hold.  `point_back` therefore takes both steps at once.
-/
import OntoCode.Proofs.Attributes

namespace OntoCode.Store

open OntoCode.Rdf

variable {classes : EntityClasses} {s : Store}

/-! ### Reading after writing -/

theorem class?_eq (s : Store) (x : EntityId) : s.class? x = (s.key? x).map Prod.fst := by
  unfold class? key?
  cases s.entity? x <;> rfl

theorem class?_of_key {t : Store} {x : EntityId} (h : t.key? x = s.key? x) :
    t.class? x = s.class? x := by
  rw [class?_eq, class?_eq, h]

theorem lt_next_of_class {x : EntityId} {name : String} (h : s.class? x = some name) :
    x < s.next := by
  refine entity?_isSome_iff.mp ?_
  obtain ⟨e, he, -⟩ := Option.map_eq_some_iff.mp h
  exact ⟨e, he⟩

theorem content?_assign_self {x : EntityId} (hx : x < s.next) (name : String) (content : Content) :
    (s.assign x name content).content? x name = some content := by
  obtain ⟨e, he⟩ := entity?_isSome_iff.mpr hx
  simp [content?_assign, he]

theorem content?_assign_ne {x z : EntityId} {name other : String} (h : ¬ (z = x ∧ other = name))
    (content : Content) : (s.assign x name content).content? z other = s.content? z other := by
  rw [content?_assign, if_neg h]

theorem items_of_content {x : EntityId} {name : String} {content : Content}
    (h : s.content? x name = some content) : s.items x name = content.items := by
  simp [items, h]

theorem lt_next_of_mem_items {x : EntityId} {name : String} {item : Item}
    (h : item ∈ s.items x name) : x < s.next := by
  refine entity?_isSome_iff.mp ?_
  cases he : s.entity? x with
  | some e => exact ⟨e, rfl⟩
  | none => simp [items, content?, he] at h

theorem items_congr {t : Store} {x : EntityId} {name : String}
    (h : t.content? x name = s.content? x name) : t.items x name = s.items x name := by
  simp [items, h]

theorem exists_content_of_mem_items {x : EntityId} {name : String} {item : Item}
    (h : item ∈ s.items x name) :
    ∃ content, s.content? x name = some content ∧ item ∈ content.items := by
  unfold items at h
  cases hcontent : s.content? x name with
  | none => simp [hcontent] at h
  | some content => exact ⟨content, rfl, by simpa [hcontent] using h⟩

/-- What an attribute holds after an assignment was assigned, or was there before. -/
theorem eq_or_of_content_assign {x z : EntityId} {name other : String} {content held : Content}
    (h : (s.assign x name content).content? z other = some held) :
    (z = x ∧ other = name ∧ held = content) ∨ s.content? z other = some held := by
  rw [content?_assign] at h
  split at h
  · rename_i hat
    obtain ⟨-, -, rfl⟩ := Option.map_eq_some_iff.mp h
    exact Or.inl ⟨hat.1, hat.2, rfl⟩
  · exact Or.inr h

/-! ### Stores that differ in one field -/

/-- The entities are the same, and so is what their fields hold, but for one field of one entity. -/
structure AgreesExcept (classes : EntityClasses) (x : EntityId) (f : EntityField) (s t : Store) :
    Prop where
  next : t.next = s.next
  key : ∀ z, t.key? z = s.key? z
  field : ∀ z name, s.class? z = some name → ∀ g ∈ classes.fields name,
    ¬ (z = x ∧ g.name = f.name) → t.content? z g.name = s.content? z g.name

theorem AgreesExcept.trans {x : EntityId} {f : EntityField} {t u : Store}
    (hst : AgreesExcept classes x f s t) (htu : AgreesExcept classes x f t u) :
    AgreesExcept classes x f s u := by
  refine ⟨htu.next.trans hst.next, fun z => (htu.key z).trans (hst.key z), ?_⟩
  intro z name hclass g hg hne
  rw [htu.field z name (by rw [class?_of_key (hst.key z), hclass]) g hg hne,
    hst.field z name hclass g hg hne]

theorem agreesExcept_assign_field (x : EntityId) (f : EntityField) (content : Content) :
    AgreesExcept classes x f s (s.assign x f.name content) :=
  ⟨next_assign .., fun z => key?_assign s x z f.name content,
    fun _ _ _ _ _ hne => content?_assign_ne hne _⟩

/-! ### References with an inverse -/

/-- One entity refers to another by a field whose inverse has the given name. -/
def RefersBy (classes : EntityClasses) (s : Store) (x : EntityId) (inverse : String)
    (y : EntityId) : Prop :=
  ∃ name, s.class? x = some name ∧ ∃ f ∈ classes.fields name, f.kind.isReference = true ∧
    f.inverse = some inverse ∧ .entity y ∈ s.items x f.name

theorem refersBy_congr {t : Store} {x : EntityId} {inverse : String} {y : EntityId}
    (hkey : t.key? x = s.key? x) (hfield : ∀ name, s.class? x = some name →
      ∀ f ∈ classes.fields name, t.content? x f.name = s.content? x f.name) :
    t.RefersBy classes x inverse y ↔ s.RefersBy classes x inverse y := by
  unfold RefersBy
  rw [class?_of_key hkey]
  constructor
  · rintro ⟨name, hname, f, hf, hkind, hinverse, hy⟩
    exact ⟨name, hname, f, hf, hkind, hinverse, by rwa [items_congr (hfield name hname f hf)] at hy⟩
  · rintro ⟨name, hname, f, hf, hkind, hinverse, hy⟩
    exact ⟨name, hname, f, hf, hkind, hinverse, by rwa [items_congr (hfield name hname f hf)]⟩

/-- A field that gains references makes its entity refer to these as well, and changes no other
reference. -/
theorem refersBy_assign_field {x : EntityId} {name : String}
    (hnames : classes.Apart name) (hclass : s.class? x = some name)
    {f : EntityField} (hf : f ∈ classes.fields name) {content : Content} {gained : EntityId → Prop}
    (hgain : ∀ w, .entity w ∈ content.items ↔ .entity w ∈ s.items x f.name ∨ gained w)
    {z : EntityId} {inverse : String} {y : EntityId} :
    (s.assign x f.name content).RefersBy classes z inverse y ↔
      s.RefersBy classes z inverse y ∨
        (z = x ∧ f.kind.isReference = true ∧ f.inverse = some inverse ∧ gained y) := by
  have hself := items_of_content (content?_assign_self (lt_next_of_class hclass) f.name content)
  have hclasses : (s.assign x f.name content).class? z = s.class? z :=
    class?_of_key (key?_assign s x z f.name content)
  constructor
  · rintro ⟨other, hother, g, hg, hkind, hinverse, hy⟩
    rw [hclasses] at hother
    by_cases hat : z = x ∧ g.name = f.name
    · obtain ⟨rfl, hgf⟩ := hat
      obtain rfl : other = name := Option.some.inj (hother.symm.trans hclass)
      obtain rfl := hnames.eq_of_name hg hf hgf
      rw [hself, hgain] at hy
      rcases hy with hy | hy
      · exact Or.inl ⟨other, hclass, g, hf, hkind, hinverse, hy⟩
      · exact Or.inr ⟨rfl, hkind, hinverse, hy⟩
    · rw [items_congr (content?_assign_ne hat content)] at hy
      exact Or.inl ⟨other, hother, g, hg, hkind, hinverse, hy⟩
  · rintro (⟨other, hother, g, hg, hkind, hinverse, hy⟩ | ⟨rfl, hkind, hinverse, hy⟩)
    · refine ⟨other, by rw [hclasses, hother], g, hg, hkind, hinverse, ?_⟩
      by_cases hat : z = x ∧ g.name = f.name
      · obtain ⟨rfl, hgf⟩ := hat
        rw [hgf] at hy ⊢
        rw [hself, hgain]
        exact Or.inl hy
      · rwa [items_congr (content?_assign_ne hat content)]
    · refine ⟨name, by rw [hclasses, hclass], f, hf, hkind, hinverse, ?_⟩
      rw [hself, hgain]
      exact Or.inr hy

/-! ### The two sides of links -/

/-- Where no member equals an item but itself, the item is a member more. -/
theorem mem_insertMember_iff {item : Item} {members : List Item}
    (hsame : ∀ m ∈ members, s.sameItem item m = true → m = item) {other : Item} :
    other ∈ s.insertMember item members ↔ other ∈ members ∨ other = item := by
  unfold insertMember
  split
  · rename_i hany
    obtain ⟨m, hm, heq⟩ := List.any_eq_true.mp hany
    refine ⟨Or.inl, ?_⟩
    rintro (hother | rfl)
    · exact hother
    · exact hsame m hm heq ▸ hm
  · simp

/-- **The inverse collections of all entities from a number on hold those that refer to their
owners.**  References stay among these entities, and no two of them are equal. -/
structure LinkedFrom (classes : EntityClasses) (base : EntityId) (s : Store) : Prop where
  apart : ∀ x, base ≤ x → ∀ name, s.class? x = some name → classes.Apart name
  distinct : ∀ x y, base ≤ x → x < s.next → base ≤ y → y < s.next → s.same x y = true → x = y
  bounded : ∀ x, base ≤ x → ∀ name y, .entity y ∈ s.items x name → base ≤ y ∧ y < s.next
  inverse : ∀ y, base ≤ y → ∀ name, s.class? y = some name → ∀ r ∈ classes.inverses name,
    ∃ members, s.content? y r = some (.set members) ∧
      ∀ item, item ∈ members ↔ ∃ x, base ≤ x ∧ item = .entity x ∧ s.RefersBy classes x r y

namespace LinkedFrom

variable {base : EntityId} (h : s.LinkedFrom classes base)

include h

/-- A set gains an entity that is put into it, and keeps what it holds. -/
theorem mem_insertMember {x : EntityId} {name : String} {members : List Item} (hx : base ≤ x)
    (hmembers : s.content? x name = some (.set members)) {y : EntityId} (hy : base ≤ y)
    (hynext : y < s.next) {item : Item} :
    item ∈ s.insertMember (.entity y) members ↔ item ∈ members ∨ item = .entity y := by
  have hsame : ∀ m ∈ members, s.sameItem (.entity y) m = true → m = .entity y := by
    intro m hm heq
    cases m with
    | null => simp [sameItem] at heq
    | native content => simp [sameItem] at heq
    | entity z =>
        have hin : .entity z ∈ s.items x name := by
          rw [items_of_content hmembers]
          exact hm
        obtain ⟨hz, hznext⟩ := h.bounded x hx name z hin
        rw [h.distinct y z hy hynext hz hznext heq]
  exact mem_insertMember_iff hsame

variable {x : EntityId} {name : String} (hx : base ≤ x) (hclass : s.class? x = some name)
  {f : EntityField} (hf : f ∈ classes.fields name)

include hx hclass hf

/-- Links are kept by filling a field that gains no references, or has no inverse. -/
theorem assign_field {content : Content} {gained : EntityId → Prop}
    (hgain : ∀ w, .entity w ∈ content.items ↔ .entity w ∈ s.items x f.name ∨ gained w)
    (hgained : ∀ w, gained w → f.inverse = none ∧ base ≤ w ∧ w < s.next) :
    (s.assign x f.name content).LinkedFrom classes base := by
  have hnames := h.apart x hx name hclass
  have hlt := lt_next_of_class hclass
  have hclasses : ∀ z, (s.assign x f.name content).class? z = s.class? z :=
    fun z => class?_of_key (key?_assign s x z f.name content)
  have hrefers : ∀ z r y, (s.assign x f.name content).RefersBy classes z r y ↔
      s.RefersBy classes z r y := by
    intro z r y
    rw [refersBy_assign_field hnames hclass hf hgain]
    refine ⟨?_, Or.inl⟩
    rintro (hrefers | ⟨-, -, hinverse, hy⟩)
    · exact hrefers
    · simp [(hgained y hy).1] at hinverse
  refine ⟨?_, ?_, ?_, ?_⟩
  · intro z hz other hother
    exact h.apart z hz other (by rwa [hclasses] at hother)
  · intro z y hz hznext hy hynext hsame
    rw [next_assign] at hznext hynext
    exact h.distinct z y hz hznext hy hynext (by rwa [same_assign] at hsame)
  · intro z hz other y hy
    rw [next_assign]
    by_cases hat : z = x ∧ other = f.name
    · obtain ⟨rfl, rfl⟩ := hat
      rw [items_of_content (content?_assign_self hlt f.name content), hgain] at hy
      rcases hy with hy | hy
      · exact h.bounded z hz f.name y hy
      · exact (hgained y hy).2
    · rw [items_congr (content?_assign_ne hat content)] at hy
      exact h.bounded z hz other y hy
  · intro y hy other hother r hr
    rw [hclasses] at hother
    obtain ⟨members, hmembers, hiff⟩ := h.inverse y hy other hother r hr
    have hne : ¬ (y = x ∧ r = f.name) := by
      rintro ⟨rfl, rfl⟩
      obtain rfl : other = name := Option.some.inj (hother.symm.trans hclass)
      exact hnames.inverse _ hf hr
    refine ⟨members, by rw [content?_assign_ne hne, hmembers], fun item => ?_⟩
    simp only [hiff, hrefers]

end LinkedFrom

/-- A link that both sides gain keeps all links. -/
theorem LinkedFrom.of_linked {base : EntityId} (h : s.LinkedFrom classes base) {t : Store}
    {x y : EntityId} {r : String} (hx : base ≤ x) (hxnext : x < s.next) (hy : base ≤ y)
    (hynext : y < s.next) (hnext : t.next = s.next) (hkey : ∀ z, t.key? z = s.key? z)
    (hitems : ∀ z name w, .entity w ∈ t.items z name →
      .entity w ∈ s.items z name ∨ w = x ∨ w = y)
    (hrefers : ∀ z q w, t.RefersBy classes z q w ↔
      s.RefersBy classes z q w ∨ (z = x ∧ q = r ∧ w = y))
    {members gained : List Item} (hmembers : s.content? y r = some (.set members))
    (hgained : t.content? y r = some (.set gained))
    (hgain : ∀ item, item ∈ gained ↔ item ∈ members ∨ item = .entity x)
    (helse : ∀ z name, s.class? z = some name → ∀ q ∈ classes.inverses name, ¬ (z = y ∧ q = r) →
      t.content? z q = s.content? z q) : t.LinkedFrom classes base := by
  have hclasses := fun z => class?_of_key (hkey z)
  refine ⟨?_, ?_, ?_, ?_⟩
  · intro z hz name hname
    exact h.apart z hz name (by rwa [hclasses] at hname)
  · intro z w hz hznext hw hwnext heq
    rw [hnext] at hznext hwnext
    exact h.distinct z w hz hznext hw hwnext (by rwa [same, hkey, hkey] at heq)
  · intro z hz name w hw
    rw [hnext]
    rcases hitems z name w hw with hold | rfl | rfl
    · exact h.bounded z hz name w hold
    · exact ⟨hx, hxnext⟩
    · exact ⟨hy, hynext⟩
  · intro w hw name hname q hq
    rw [hclasses] at hname
    obtain ⟨held, hheld, hiff⟩ := h.inverse w hw name hname q hq
    by_cases hat : w = y ∧ q = r
    · obtain ⟨rfl, rfl⟩ := hat
      obtain rfl : held = members := by simpa [hmembers] using hheld.symm
      refine ⟨gained, hgained, fun item => ?_⟩
      rw [hgain, hiff]
      constructor
      · rintro (⟨z, hz, rfl, hrefer⟩ | rfl)
        · exact ⟨z, hz, rfl, (hrefers z q w).mpr (.inl hrefer)⟩
        · exact ⟨x, hx, rfl, (hrefers x q w).mpr (.inr ⟨rfl, rfl, rfl⟩)⟩
      · rintro ⟨z, hz, rfl, hrefer⟩
        rcases (hrefers z q w).mp hrefer with hold | ⟨rfl, -, -⟩
        · exact Or.inl ⟨z, hz, rfl, hold⟩
        · exact Or.inr rfl
    · refine ⟨held, by rw [helse w name hname q hq hat, hheld], fun item => ?_⟩
      rw [hiff]
      have hsame : ∀ z, t.RefersBy classes z q w ↔ s.RefersBy classes z q w := by
        intro z
        rw [hrefers]
        exact or_iff_left fun hnew => hat ⟨hnew.2.2, hnew.2.1⟩
      simp only [hsame]

/-! ### Putting an entity into a field -/

theorem sameItem_assign (x : EntityId) (name : String) (content : Content) :
    (s.assign x name content).sameItem = s.sameItem := by
  funext a b
  cases a <;> cases b <;> simp [sameItem]

theorem insertMember_assign (x : EntityId) (name : String) (content : Content) :
    (s.assign x name content).insertMember = s.insertMember := by
  funext item members
  unfold insertMember
  rw [sameItem_assign]

/-- Inverse collections are no fields. -/
theorem content?_assign_inverse {y : EntityId} {other : String}
    (hnames : classes.Apart other) (hother : s.class? y = some other) {r : String}
    (hr : r ∈ classes.inverses other) (content : Content) {z : EntityId} {name : String}
    (hclass : s.class? z = some name) {g : EntityField} (hg : g ∈ classes.fields name) :
    (s.assign y r content).content? z g.name = s.content? z g.name := by
  refine content?_assign_ne ?_ content
  rintro ⟨rfl, rfl⟩
  obtain rfl : name = other := Option.some.inj (hclass.symm.trans hother)
  exact hnames.inverse _ hg hr

namespace LinkedFrom

variable {base : EntityId} (h : s.LinkedFrom classes base) {x : EntityId} {name : String}
  (hx : base ≤ x) (hclass : s.class? x = some name) {f : EntityField}
  (hf : f ∈ classes.fields name) {y : EntityId} (hy : base ≤ y) {other : String}
  (hother : s.class? y = some other)

include h hx hclass hf hy hother

/-- **A field that gains an entity, and then the collection at the other end, keep the links.** -/
theorem point_back (hkind : f.kind.isReference = true) {r : String} (hback : f.inverse = some r)
    (hr : r ∈ classes.inverses other) {content : Content}
    (hgain : ∀ w, .entity w ∈ content.items ↔ .entity w ∈ s.items x f.name ∨ w = y) :
    ∃ t, (s.assign x f.name content).insertInto? y r (.entity x) = some t ∧
      t.LinkedFrom classes base ∧ AgreesExcept classes x f s t ∧
      t.content? x f.name = some content := by
  have hxnext := lt_next_of_class hclass
  have hynext := lt_next_of_class hother
  have hxapart := h.apart x hx name hclass
  have hyapart := h.apart y hy other hother
  obtain ⟨members, hmembers, -⟩ := h.inverse y hy other hother r hr
  have hapart : ¬ (y = x ∧ r = f.name) := by
    rintro ⟨rfl, rfl⟩
    obtain rfl : other = name := Option.some.inj (hother.symm.trans hclass)
    exact hxapart.inverse _ hf hr
  have hself := content?_assign_self hxnext f.name content
  have hpointed : (s.assign x f.name content).content? y r = some (.set members) := by
    rw [content?_assign_ne hapart, hmembers]
  have hyclass : (s.assign x f.name content).class? y = some other := by
    rw [class?_of_key (key?_assign ..), hother]
  -- The second step changes no field.
  have hfields := fun z owner (howner : (s.assign x f.name content).class? z = some owner) g hg =>
    content?_assign_inverse hyapart hyclass hr (.set (s.insertMember (.entity x) members)) howner
      (g := g) hg
  have hlinked : ((s.assign x f.name content).assign y r
      (.set (s.insertMember (.entity x) members))).content? y r =
        some (.set (s.insertMember (.entity x) members)) :=
    content?_assign_self (by rwa [next_assign]) ..
  have hkept : ((s.assign x f.name content).assign y r
      (.set (s.insertMember (.entity x) members))).content? x f.name = some content := by
    rw [content?_assign_ne fun hat => hapart ⟨hat.1.symm, hat.2.symm⟩, hself]
  have hmem : ∀ item, item ∈ s.insertMember (.entity x) members ↔
      item ∈ members ∨ item = .entity x :=
    fun item => h.mem_insertMember hy hmembers hx hxnext
  refine ⟨(s.assign x f.name content).assign y r (.set (s.insertMember (.entity x) members)),
    by rw [insertInto?, hpointed, insertMember_assign], ?_,
    (agreesExcept_assign_field x f content).trans
      ⟨by simp, by simp, fun z owner howner g hg _ => hfields z owner howner g hg⟩, hkept⟩
  refine h.of_linked hx hxnext hy hynext (by simp) (by simp) ?_ ?_ hmembers hlinked hmem ?_
  · intro z held w hw
    by_cases hat : z = y ∧ held = r
    · obtain ⟨rfl, rfl⟩ := hat
      rw [items_of_content hlinked] at hw
      rcases (hmem _).mp hw with hold | heq
      · rw [items_of_content hmembers]
        exact Or.inl hold
      · exact Or.inr (Or.inl (Item.entity.inj heq))
    · rw [items_congr (content?_assign_ne hat _)] at hw
      by_cases hat : z = x ∧ held = f.name
      · obtain ⟨rfl, rfl⟩ := hat
        rw [items_of_content hself, hgain] at hw
        exact hw.imp_right Or.inr
      · rw [items_congr (content?_assign_ne hat content)] at hw
        exact Or.inl hw
  · intro z q w
    rw [refersBy_congr (key?_assign ..) (hfields z), refersBy_assign_field hxapart hclass hf hgain]
    simp [hkind, hback, eq_comm]
  · intro z owner howner q hq hne
    rw [content?_assign_ne hne, content?_assign_ne]
    rintro ⟨rfl, rfl⟩
    obtain rfl : owner = name := Option.some.inj (howner.symm.trans hclass)
    exact hxapart.inverse _ hf hq

variable (hinverse : ∀ r, f.inverse = some r → r ∈ classes.inverses other)

include hinverse

/-- **An entity that is put into an empty field of objects is there, and the links are kept.** -/
theorem put_object (hkind : f.kind = .object)
    (hempty : s.content? x f.name = some (.single .null)) :
    ∃ t, s.put x f (.entity y) = ⟨t, none⟩ ∧ t.LinkedFrom classes base ∧
      AgreesExcept classes x f s t ∧ t.content? x f.name = some (.single (.entity y)) := by
  have hgain : ∀ w, .entity w ∈ (Content.single (.entity y)).items ↔
      .entity w ∈ s.items x f.name ∨ w = y := by
    intro w
    simp [items_of_content hempty, Content.items]
  cases hback : f.inverse with
  | none =>
      refine ⟨s.assign x f.name (.single (.entity y)), by simp [put, hback, hkind], ?_,
        agreesExcept_assign_field x f _, content?_assign_self (lt_next_of_class hclass) f.name _⟩
      exact h.assign_field hx hclass hf hgain
        fun w hw => ⟨hback, hw ▸ ⟨hy, lt_next_of_class hother⟩⟩
  | some r =>
      obtain ⟨t, ht, hlinked, hagrees, hcontent⟩ := h.point_back hx hclass hf hy hother
        (by rw [hkind]; rfl) hback (hinverse r hback) hgain
      refine ⟨t, ?_, hlinked, hagrees, hcontent⟩
      simp [put, hback, link, point?, hkind, release?, hempty, pointBack?, ht]

/-- **An entity that is put into a collection is a member, and the links are kept.** -/
theorem put_member (hkind : f.kind = .collection) {members : List Item}
    (hmembers : s.content? x f.name = some (.set members)) :
    ∃ t, s.put x f (.entity y) = ⟨t, none⟩ ∧ t.LinkedFrom classes base ∧
      AgreesExcept classes x f s t ∧
      t.content? x f.name = some (.set (s.insertMember (.entity y) members)) := by
  have hgain : ∀ w, .entity w ∈ (Content.set (s.insertMember (.entity y) members)).items ↔
      .entity w ∈ s.items x f.name ∨ w = y := by
    intro w
    rw [items_of_content hmembers]
    refine (h.mem_insertMember hx hmembers hy (lt_next_of_class hother)).trans ?_
    rw [Item.entity.injEq]
    rfl
  cases hback : f.inverse with
  | none =>
      refine ⟨s.assign x f.name (.set (s.insertMember (.entity y) members)),
        by simp [put, hback, hkind, insertInto?, hmembers], ?_,
        agreesExcept_assign_field x f _, content?_assign_self (lt_next_of_class hclass) f.name _⟩
      exact h.assign_field hx hclass hf hgain
        fun w hw => ⟨hback, hw ▸ ⟨hy, lt_next_of_class hother⟩⟩
  | some r =>
      obtain ⟨t, ht, hlinked, hagrees, hcontent⟩ := h.point_back hx hclass hf hy hother
        (by rw [hkind]; rfl) hback (hinverse r hback) hgain
      refine ⟨t, ?_, hlinked, hagrees, hcontent⟩
      simp only [insertInto?] at ht
      simp [put, hback, link, point?, hkind, insertInto?, hmembers, pointBack?, ht]

end LinkedFrom

/-- Taking the object from a field that has none leaves it without one. -/
theorem put_null {x : EntityId} {f : EntityField} (hkind : f.kind = .object)
    (hempty : s.content? x f.name = some (.single .null)) :
    s.put x f .null = ⟨s.assign x f.name (.single .null), none⟩ := by
  cases hback : f.inverse with
  | none => simp [put, hback, hkind]
  | some r => simp [put, hback, link, point?, hkind, release?, hempty, pointBack?]

/-! ### New entities -/

theorem entity?_add_self (s : Store) (e : Entity) : (s.add e).entity? s.next = some e := by
  simp [entity?, add, next]

theorem entity?_add_of_lt {e : Entity} {z : EntityId} (hz : z < s.next) :
    (s.add e).entity? z = s.entity? z :=
  List.getElem?_append_left hz

theorem next_add (s : Store) (e : Entity) : (s.add e).next = s.next + 1 := by
  simp [next, add]

theorem content?_add_of_lt {e : Entity} {z : EntityId} (hz : z < s.next) (name : String) :
    (s.add e).content? z name = s.content? z name := by
  unfold content?
  rw [entity?_add_of_lt hz]

theorem key?_add_of_lt {e : Entity} {z : EntityId} (hz : z < s.next) :
    (s.add e).key? z = s.key? z := by
  unfold key?
  rw [entity?_add_of_lt hz]

theorem content?_add_self (s : Store) (e : Entity) (name : String) :
    (s.add e).content? s.next name = e.content? name := by
  simp [content?, entity?_add_self]

theorem key?_add_self (s : Store) (e : Entity) : (s.add e).key? s.next = some e.key := by
  simp [key?, entity?_add_self]

/-- An entity of a store with one more is an old one or the new one. -/
theorem lt_or_eq_of_class_add {e : Entity} {z : EntityId} {name : String}
    (h : (s.add e).class? z = some name) : z < s.next ∨ z = s.next := by
  have hlt := lt_next_of_class h
  rw [next_add] at hlt
  exact Nat.lt_or_eq_of_le (Nat.lt_succ_iff.mp hlt)

/-- A new entity refers to none. -/
theorem no_references_add {name : String} {iri : Iri} {held : String} {w : EntityId} :
    .entity w ∉ (s.add (.ofClass classes name iri)).items s.next held := by
  intro hw
  unfold items at hw
  rw [content?_add_self] at hw
  cases hcontent : (Entity.ofClass classes name iri).content? held with
  | none => simp [hcontent] at hw
  | some content =>
      rw [hcontent] at hw
      exact Entity.no_references_ofClass hcontent w hw

theorem refersBy_add {name : String} {iri : Iri} {z : EntityId} {r : String} {w : EntityId} :
    (s.add (.ofClass classes name iri)).RefersBy classes z r w ↔ s.RefersBy classes z r w := by
  by_cases hz : z < s.next
  · exact refersBy_congr (key?_add_of_lt hz) fun _ _ f _ => content?_add_of_lt hz f.name
  · constructor
    · rintro ⟨owner, howner, f, -, -, -, hw⟩
      obtain rfl := (lt_or_eq_of_class_add howner).resolve_left hz
      exact absurd hw no_references_add
    · rintro ⟨owner, howner, -⟩
      exact absurd (lt_next_of_class howner) hz

/-- A new entity with a key that is not there yet keeps keys apart. -/
theorem LinkedFrom.distinct_add {base : EntityId} (h : s.LinkedFrom classes base) {e : Entity}
    (hnew : ∀ x, base ≤ x → x < s.next → s.key? x ≠ some e.key) {z w : EntityId} (hz : base ≤ z)
    (hznext : z < (s.add e).next) (hw : base ≤ w) (hwnext : w < (s.add e).next)
    (heq : (s.add e).same z w = true) : z = w := by
  rw [next_add] at hznext hwnext
  rw [same, decide_eq_true_eq] at heq
  rcases Nat.lt_or_eq_of_le (Nat.lt_succ_iff.mp hznext) with hzlt | rfl
  · rcases Nat.lt_or_eq_of_le (Nat.lt_succ_iff.mp hwnext) with hwlt | rfl
    · rw [key?_add_of_lt hzlt, key?_add_of_lt hwlt] at heq
      exact h.distinct z w hz hzlt hw hwlt (by rw [same, heq]; simp)
    · rw [key?_add_of_lt hzlt, key?_add_self] at heq
      exact absurd heq (hnew z hz hzlt)
  · rcases Nat.lt_or_eq_of_le (Nat.lt_succ_iff.mp hwnext) with hwlt | rfl
    · rw [key?_add_of_lt hwlt, key?_add_self] at heq
      exact absurd heq.symm (hnew w hw hwlt)
    · rfl

/-- **A new entity refers to none, and none refers to it, so links stay as they are.** -/
theorem LinkedFrom.add {base : EntityId} (h : s.LinkedFrom classes base) {name : String} {iri : Iri}
    (hnames : classes.Apart name)
    (hnew : ∀ x, base ≤ x → x < s.next → s.key? x ≠ some (name, iri)) :
    (s.add (.ofClass classes name iri)).LinkedFrom classes base := by
  have hself := key?_add_self s (.ofClass classes name iri)
  rw [Entity.key_ofClass] at hself
  have hclass : (s.add (.ofClass classes name iri)).class? s.next = some name := by
    rw [class?_eq, hself]
    rfl
  have hold : ∀ {z}, z < s.next → (s.add (.ofClass classes name iri)).class? z = s.class? z :=
    fun hz => class?_of_key (key?_add_of_lt hz)
  refine ⟨?_, ?_, ?_, ?_⟩
  · intro z hz owner howner
    rcases lt_or_eq_of_class_add howner with hlt | rfl
    · exact h.apart z hz owner (by rwa [hold hlt] at howner)
    · obtain rfl : name = owner := Option.some.inj (hclass.symm.trans howner)
      exact hnames
  · intro z w hz hznext hw hwnext heq
    exact h.distinct_add (by simpa using hnew) hz hznext hw hwnext heq
  · intro z hz held w hw
    rw [next_add]
    by_cases hlt : z < s.next
    · rw [items_congr (content?_add_of_lt hlt held)] at hw
      obtain ⟨hbase, hnext⟩ := h.bounded z hz held w hw
      exact ⟨hbase, Nat.lt_succ_of_lt hnext⟩
    · have hznext := lt_next_of_mem_items hw
      rw [next_add] at hznext
      obtain rfl := (Nat.lt_or_eq_of_le (Nat.lt_succ_iff.mp hznext)).resolve_left hlt
      exact absurd hw no_references_add
  · intro y hy owner howner r hr
    simp only [refersBy_add]
    rcases lt_or_eq_of_class_add howner with hlt | rfl
    · rw [content?_add_of_lt hlt]
      exact h.inverse y hy owner (by rwa [hold hlt] at howner) r hr
    · obtain rfl : name = owner := Option.some.inj (hclass.symm.trans howner)
      refine ⟨[], by rw [content?_add_self, Entity.content?_ofClass_inverse hnames iri hr], ?_⟩
      intro item
      simp only [List.not_mem_nil, false_iff, not_exists, not_and]
      rintro x hx rfl ⟨owner, -, f, -, -, -, hw⟩
      exact Nat.lt_irrefl _ (h.bounded x hx f.name s.next hw).2

/-! ### Steps that were taken

What each step has done when it is over, so that nobody needs to look into it again.
-/

section Steps

variable {t : Store} {sides : LinkSides} {x : EntityId} {name : String} {item : Item}

/-- A set gains at most the item that is put into it. -/
theorem mem_of_mem_insertMember {members : List Item} {other : Item}
    (h : other ∈ s.insertMember item members) : other ∈ members ∨ other = item := by
  unfold insertMember at h
  split at h
  · exact .inl h
  · simpa using h

theorem insertInto?_eq_some : s.insertInto? x name item = some t ↔
    ∃ members, s.content? x name = some (.set members) ∧
      t = s.assign x name (.set (s.insertMember item members)) := by
  unfold insertInto?
  constructor
  · intro h
    split at h
    · next members hmembers => exact ⟨members, hmembers, (Option.some.inj h).symm⟩
    · cases h
  · rintro ⟨members, hmembers, rfl⟩
    rw [hmembers]

theorem eraseFrom?_eq_some : s.eraseFrom? x name item = some t ↔
    ∃ members, s.content? x name = some (.set members) ∧
      t = s.assign x name (.set (s.eraseMember item members)) := by
  unfold eraseFrom?
  constructor
  · intro h
    split at h
    · next members hmembers => exact ⟨members, hmembers, (Option.some.inj h).symm⟩
    · cases h
  · rintro ⟨members, hmembers, rfl⟩
    rw [hmembers]

/-- The source was taken from the inverse collection of its target, if there was one to leave. -/
theorem release?_cases (h : s.release? sides x item = some t) :
    t = s ∨ ∃ p, s.eraseFrom? p sides.inverse (.entity x) = some t := by
  unfold release? at h
  split at h
  · exact .inl (Option.some.inj h).symm
  · exact .inl (Option.some.inj h).symm
  · split at h
    · exact .inl (Option.some.inj h).symm
    · split at h
      · exact .inr ⟨_, h⟩
      · cases h
  · cases h

theorem point?_cases (h : s.point? sides x item = some t) :
    t = s ∨ s.insertInto? x sides.forward item = some t ∨
      ∃ released, s.release? sides x item = some released ∧
        t = released.assign x sides.forward (.single item) := by
  unfold point? at h
  split at h
  · obtain ⟨released, hreleased, rfl⟩ := Option.map_eq_some_iff.mp h
    exact .inr (.inr ⟨released, hreleased, rfl⟩)
  · split at h
    · exact .inl (Option.some.inj h).symm
    · exact .inr (.inl h)

theorem pointBack?_cases (h : s.pointBack? sides x item = some t) :
    t = s ∨ ∃ y, s.insertInto? y sides.inverse (.entity x) = some t := by
  unfold pointBack? at h
  split at h
  · exact .inl (Option.some.inj h).symm
  · exact .inr ⟨_, h⟩
  · cases h

/-- The field was assigned what it held and the item, or both sides were linked as far as that was
possible. -/
theorem put_cases (s : Store) (x : EntityId) (f : EntityField) (item : Item) :
    (s.put x f item).store = s ∨
      (∃ content, (∀ other ∈ content.items, other ∈ s.items x f.name ∨ other = item) ∧
        (s.put x f item).store = s.assign x f.name content) ∨
      ∃ inverse pointed, f.inverse = some inverse ∧
        s.point? ⟨f.name, inverse, f.kind = .object⟩ x item = some pointed ∧
        ((s.put x f item).store = pointed ∨
          pointed.pointBack? ⟨f.name, inverse, f.kind = .object⟩ x item =
            some (s.put x f item).store) := by
  have hsingle : ∀ other ∈ (Content.single item).items, other ∈ s.items x f.name ∨ other = item :=
    fun other h => .inr (List.mem_singleton.mp h)
  unfold put
  cases f.inverse with
  | some inverse =>
      simp only [link]
      cases hpoint : s.point? ⟨f.name, inverse, f.kind = .object⟩ x item with
      | none => exact .inl rfl
      | some pointed =>
          refine .inr (.inr ⟨inverse, pointed, rfl, hpoint, ?_⟩)
          simp only
          cases pointed.pointBack? ⟨f.name, inverse, f.kind = .object⟩ x item with
          | none => exact .inl rfl
          | some linked => exact .inr rfl
  | none =>
      cases f.kind with
      | value => exact .inr (.inl ⟨_, hsingle, rfl⟩)
      | object => exact .inr (.inl ⟨_, hsingle, rfl⟩)
      | array =>
          simp only
          split
          · next items hitems =>
              refine .inr (.inl ⟨_, fun other h => ?_, rfl⟩)
              rw [items_of_content hitems]
              simpa [Content.items] using h
          · exact .inl rfl
      | collection =>
          simp only
          split
          · next changed hchanged =>
              obtain ⟨members, hmembers, rfl⟩ := insertInto?_eq_some.mp hchanged
              refine .inr (.inl ⟨_, fun other h => ?_, rfl⟩)
              rw [items_of_content hmembers]
              exact mem_of_mem_insertMember h
          · exact .inl rfl

end Steps

end OntoCode.Store

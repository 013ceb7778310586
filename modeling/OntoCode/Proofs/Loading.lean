/-
Loading makes a mirror of what was written.

Work on an entity fills some of its fields, and asking for an entity may fill all
fields of others.  Values are read at once.  References are asked for first, and the
field is changed in the state that this leaves.

An entity is noted before its fields are read, so a reference in a circle finds it, and
nested work leaves fewer IRIs to be met.  Therefore the depth it is given suffices.
-/
import OntoCode.Proofs.Mirrors

namespace OntoCode

open OntoCode.Rdf

namespace Loaded

variable {t : Transcript} {base : EntityId} {l m n : Loaded} {a b x y : EntityId} {e : Entity}

/-! ### Steps of loading -/

theorem run_putInto {f : EntityField} {item : Item} {u : Store}
    (h : l.store.put x f item = ⟨u, none⟩) :
    (putInto x f item).run.run l = (.ok (), { l with store := u }) := by
  unfold putInto
  rw [run_get_bind, run_modify_bind, h]
  rfl

theorem run_settled_bind {α β : Type} (outcome : α) (next : α → Loading β) (l : Loaded) :
    (settled (.ok outcome) >>= next).run.run l = (next outcome).run.run l := rfl

/-! ### Fields without references -/

theorem no_references_initial (kind : PropertyKind) (id : EntityId) :
    .entity id ∉ (Content.initial kind).items := by
  cases kind <;> simp [Content.initial, Content.items]

/-- A field that is filled with no references. -/
theorem Consistent.assign (hl : l.Consistent t base) (hx : l.image? t a = some x)
    (he : t.store.entity? a = some e) {f : EntityField} (hf : f ∈ t.classes.fields e.className)
    (hempty : l.store.content? x f.name = some (.initial f.kind)) (content : Content)
    (hcontent : ∀ id, .entity id ∉ content.items) :
    Consistent t base { l with store := l.store.assign x f.name content } ∧
      Grows t (fun y g => y = x ∧ g = f) l { l with store := l.store.assign x f.name content } ∧
      (l.store.assign x f.name content).content? x f.name = some content := by
  obtain ⟨-, hbase, -⟩ := hl.of_image hx he
  have hclass := hl.class_of_image hx he
  have hagrees : Store.AgreesExcept t.classes x f l.store (l.store.assign x f.name content) :=
    Store.agreesExcept_assign_field x f content
  have hgain : ∀ w, .entity w ∈ content.items ↔ .entity w ∈ l.store.items x f.name ∨ False := by
    intro w
    rw [Store.items_of_content hempty]
    simp [hcontent, no_references_initial]
  have hlinked := hl.linked.assign_field hbase hclass hf hgain (by simp)
  exact ⟨hl.of_agrees hlinked hagrees, .of_agrees hl hx he hf hagrees,
    Store.content?_assign_self (Store.lt_next_of_class hclass) ..⟩

/-- Work on the entity that stands for `a` fills some fields that hold nothing yet. -/
def Loads (t : Transcript) (base : EntityId) (bound : Nat) (a x : EntityId) (fs : List EntityField)
    (work : Loading Unit) : Prop :=
  ∀ l : Loaded, l.Consistent t base → l.image? t a = some x → l.pending t ≤ bound →
    (∀ f ∈ fs, l.store.content? x f.name = some (.initial f.kind)) →
      ∃ m, work.run.run l = (.ok (), m) ∧ m.Consistent t base ∧
        Grows t (fun y g => y = x ∧ g ∈ fs) l m ∧ ∀ f ∈ fs, m.Filled t a x f

/-- The entity for an IRI is found or made, if the IRI is that of an entity to meet and the entity
may stand where it is expected. -/
def Resolves (t : Transcript) (base : EntityId) (bound : Nat) (resolve : Resolver) : Prop :=
  ∀ (l : Loaded) (a : EntityId) (e : Entity) (expected : Iri) (above : String),
    l.Consistent t base → t.reached a → t.store.entity? a = some e →
    t.factory.creator? expected = some above → t.classes.isBelow e.className above = true →
    l.pending t ≤ bound →
      ∃ x m, (resolve expected e.iri).run.run l = (.ok x, m) ∧ m.Consistent t base ∧
        Grows t (fun _ _ => False) l m ∧ m.image? t a = some x

section Field

variable {bound : Nat} {resolve : Resolver} {f : EntityField} (he : t.store.entity? a = some e)
  (hf : f ∈ t.classes.fields e.className)

include he hf

/-- A field is filled by assigning what mirrors it, if this refers to no entity. -/
theorem loads_assigned {written content : Content}
    (hwritten : t.store.content? a f.name = some written)
    (hmirrors : ∀ image, Mirrors image written content)
    (hcontent : ∀ id, .entity id ∉ content.items) {work : Loading Unit}
    (hrun : ∀ l : Loaded, l.store.content? x f.name = some (.initial f.kind) →
      work.run.run l = (.ok (), { l with store := l.store.assign x f.name content })) :
    Loads t base bound a x [f] work := by
  intro l hl hx _ hempty
  have hempty := hempty f List.mem_cons_self
  obtain ⟨hconsistent, hgrows, hheld⟩ := hl.assign hx he hf hempty content hcontent
  refine ⟨_, hrun l hempty, hconsistent, hgrows.mono (by simp), ?_⟩
  intro g hg
  rw [List.mem_singleton.mp hg]
  exact ⟨written, content, hwritten, hheld, hmirrors _⟩

/-- **A field of values is filled with its values.** -/
theorem loads_values (hkind : f.kind.isReference = false) (ha : t.reached a) :
    Loads t base bound a x [f] (t.source.loadField resolve x e.iri f) := by
  obtain ⟨values, hvalues, hsorted, hmem⟩ :=
    t.stated.exists_values t.regular (t.listed a ha) he hf hkind
  obtain ⟨written, hwritten, hitems, hadmits⟩ := t.regular.exists_content he hf
  unfold Store.Admits at hadmits
  cases hk : f.kind <;> simp only [hk] at hadmits hkind
  · obtain ⟨item, rfl, hitem⟩ := hadmits
    have hrun : ∀ held, ((values.map Native.value).head?.map Item.native).getD .null = held →
        ∀ l : Loaded, (t.source.loadField resolve x e.iri f).run.run l =
          (.ok (), { l with store := l.store.assign x f.name (.single held) }) := by
      rintro held rfl l
      unfold EntitySource.loadField Transcript.source
      simp only [hk, hvalues, run_settled_bind]
      rfl
    rw [hitems] at hmem
    rcases hitem with rfl | ⟨v, type, rfl, -⟩
    · have hvalues : values = [] := by
        refine List.eq_nil_iff_forall_not_mem.mpr fun v hv => ?_
        simpa [Content.items] using (hmem v).mp hv
      subst hvalues
      exact loads_assigned he hf hwritten (fun _ => .null) (by simp [Content.items])
        fun l _ => hrun _ rfl l
    · have hv : v ∈ values := (hmem v).mpr (by simp [Content.items])
      obtain ⟨w, rest, rfl⟩ := List.exists_cons_of_ne_nil (List.ne_nil_of_mem hv)
      obtain rfl : w = v := by simpa [Content.items] using (hmem w).mp List.mem_cons_self
      exact loads_assigned he hf hwritten (fun _ => .value (.value w)) (by simp [Content.items])
        fun l _ => hrun _ rfl l
  · obtain ⟨items, rfl, hheld⟩ := hadmits
    have hsame : ∀ item, item ∈ items ↔ ∃ v ∈ values, item = .native (.value v) := by
      intro item
      constructor
      · intro hitem
        obtain ⟨v, -, rfl, -⟩ := hheld item hitem
        exact ⟨v, (hmem v).mpr (by rw [hitems]; exact hitem), rfl⟩
      · rintro ⟨v, hv, rfl⟩
        have := (hmem v).mp hv
        rwa [hitems] at this
    refine loads_assigned he hf hwritten (fun image => .array hsorted hsame)
      (by simp [Content.items]) fun l _ => ?_
    unfold EntitySource.loadField Transcript.source
    simp only [hk, hvalues, run_settled_bind, List.map_map, Function.comp_def]
    rfl
  · simp [PropertyKind.isReference] at hkind
  · simp [PropertyKind.isReference] at hkind

/-- The state in which an entity has been asked for that a field refers to. -/
structure Referred (t : Transcript) (base : EntityId) (l : Loaded) (x : EntityId) (f : EntityField)
    (b : EntityId) (m : Loaded) (y : EntityId) : Prop where
  consistent : m.Consistent t base
  grows : Grows t (fun _ _ => False) l m
  image : m.image? t b = some y
  base_le : base ≤ y
  fits : ∃ other, m.store.class? y = some other ∧
    ∀ r, f.inverse = some r → r ∈ t.classes.inverses other
  kept : m.store.content? x f.name = l.store.content? x f.name

/-- What a field refers to can be asked for, and asking leaves the field as it is. -/
theorem exists_referred (hresolve : Resolves t base bound resolve)
    (hkind : f.kind.isReference = true) (hl : l.Consistent t base) (hx : l.image? t a = some x)
    (hpending : l.pending t ≤ bound) {d : Entity} (hb : .entity b ∈ t.store.items a f.name)
    (hd : t.store.entity? b = some d) :
    ∃ y m, (resolve f.range d.iri).run.run l = (.ok y, m) ∧ Referred t base l x f b m y := by
  have hreached := t.closed a b (hl.of_image hx he).1 ⟨e, he, f, hf, hkind, hb⟩
  rcases t.regular.items_of_reference he hf hkind _ hb with h | ⟨c, d', hc, hd', hfits⟩
  · simp at h
  obtain rfl := Item.entity.inj hc
  obtain rfl := Option.some.inj (hd.symm.trans hd')
  obtain ⟨⟨above, hexpected, hbelow⟩, hinverse⟩ := hfits
  obtain ⟨y, m, hrun, hm, hgrows, hy⟩ :=
    hresolve l b d f.range above hl hreached hd hexpected hbelow hpending
  obtain ⟨-, hbase, -⟩ := hm.of_image hy hd
  exact ⟨y, m, hrun, hm, hgrows, hy, hbase, ⟨d.className, hm.class_of_image hy hd, hinverse⟩,
    hgrows.field a x e hx he f hf (by simp)⟩

/-- What has been asked for may then be put into the field. -/
theorem Referred.put (h : Referred t base l x f b m y) (hx : l.image? t a = some x) {u : Store}
    (hlinked : u.LinkedFrom t.classes base)
    (hagrees : Store.AgreesExcept t.classes x f m.store u) :
    Consistent t base { m with store := u } ∧
      Grows t (fun z g => z = x ∧ g = f) l { m with store := u } := by
  have hchanged := Grows.of_agrees h.consistent (h.grows.image hx) he hf hagrees
  exact ⟨h.consistent.of_agrees hlinked hagrees,
    (h.grows.trans hchanged h.consistent fun z g hz => ⟨a, hz.1 ▸ hx⟩).mono (by simp)⟩

omit he hf in
theorem run_refer {expected iri : Iri} {u : Store}
    (hrun : (resolve expected iri).run.run l = (.ok y, m))
    (hput : m.store.put x f (.entity y) = ⟨u, none⟩) :
    (do putInto x f (.entity (← resolve expected iri)) : Loading Unit).run.run l =
      (.ok (), { m with store := u }) := by
  rw [run_bind_ok hrun, run_putInto hput]

/-- **A field of objects is filled with the entity that stands for its object.** -/
theorem loads_object (hresolve : Resolves t base bound resolve) (hkind : f.kind = .object)
    (ha : t.reached a) : Loads t base bound a x [f] (t.source.loadField resolve x e.iri f) := by
  have hreference : f.kind.isReference = true := by rw [hkind]; rfl
  have hmem := fun i =>
    t.stated.mem_sortedIris t.regular (t.listed a ha) he hf hreference (i := i)
  obtain ⟨written, hwritten, hitems, hadmits⟩ := t.regular.exists_content he hf
  unfold Store.Admits at hadmits
  simp only [hkind] at hadmits
  obtain ⟨item, rfl, hitem⟩ := hadmits
  rw [Content.items] at hitems
  rw [hitems] at hmem
  cases hiris : t.graph.sortedIris e.iri f.predicate with
  | nil =>
      have hnull : item = .null := by
        rcases hitem with rfl | ⟨b, d, rfl, hd, -⟩
        · rfl
        · have := (hmem d.iri).mpr ⟨b, d, by simp, hd, rfl⟩
          simp [hiris] at this
      subst hnull
      refine loads_assigned he hf hwritten (fun _ => .null) (by simp [Content.items]) ?_
      intro l hempty
      rw [hkind] at hempty
      unfold EntitySource.loadField
      simp only [hkind]
      rw [show t.source.graph = t.graph from rfl, hiris]
      exact run_putInto (Store.put_null hkind hempty)
  | cons first rest =>
      intro l hl hx hpending hempty
      have hempty := hempty f List.mem_cons_self
      rw [hkind] at hempty
      obtain ⟨-, hbase, -⟩ := hl.of_image hx he
      obtain ⟨b, d, hb, hd, hfirst⟩ := (hmem first).mp (by rw [hiris]; exact List.mem_cons_self)
      obtain rfl := List.mem_singleton.mp hb
      obtain ⟨y, m, hrun, hreferred⟩ := exists_referred he hf hresolve hreference hl hx hpending
        (by rw [hitems]; exact hb) hd
      have hxm := hreferred.grows.image hx
      obtain ⟨other, hother, hinverse⟩ := hreferred.fits
      obtain ⟨u, hput, hlinked, hagrees, hheld⟩ := hreferred.consistent.linked.put_object hbase
        (hreferred.consistent.class_of_image hxm he) hf hreferred.base_le hother hinverse hkind
        (by rw [hreferred.kept]; exact hempty)
      obtain ⟨hconsistent, hgrows⟩ := hreferred.put he hf hx hlinked hagrees
      refine ⟨{ m with store := u }, ?_, hconsistent, hgrows.mono (by simp), ?_⟩
      · unfold EntitySource.loadField
        simp only [hkind]
        rw [show t.source.graph = t.graph from rfl, hiris, ← hfirst]
        exact run_refer hrun hput
      · intro g hg
        rw [List.mem_singleton.mp hg]
        exact ⟨_, _, hwritten, hheld, .object hreferred.image⟩

/-- The members of a collection that is being filled stand for members of the one that was
written. -/
def Stand (t : Transcript) (a : EntityId) (f : EntityField) (l : Loaded) (members : List Item) :
    Prop :=
  ∀ item ∈ members, ∃ b y, .entity b ∈ t.store.items a f.name ∧ l.image? t b = some y ∧
    item = .entity y

/-- A collection gains, one after the other, the entities that stand for those with some IRIs. -/
theorem loads_members (hresolve : Resolves t base bound resolve) (hkind : f.kind = .collection) :
    ∀ (iris : List Iri), (∀ i ∈ iris, ∃ b d, .entity b ∈ t.store.items a f.name ∧
        t.store.entity? b = some d ∧ d.iri = i) →
      ∀ (l : Loaded) (members : List Item), l.Consistent t base → l.image? t a = some x →
        l.pending t ≤ bound → l.store.content? x f.name = some (.set members) →
        Stand t a f l members →
      ∃ m loaded, (iris.forM fun i => do putInto x f (.entity (← resolve f.range i))).run.run l =
          (.ok (), m) ∧ m.Consistent t base ∧ Grows t (fun y g => y = x ∧ g = f) l m ∧
        m.store.content? x f.name = some (.set loaded) ∧ Stand t a f m loaded ∧
        (∀ item ∈ members, item ∈ loaded) ∧
        ∀ i ∈ iris, ∃ b d y, t.store.entity? b = some d ∧ d.iri = i ∧ m.image? t b = some y ∧
          .entity y ∈ loaded := by
  intro iris
  have hreference : f.kind.isReference = true := by rw [hkind]; rfl
  induction iris with
  | nil =>
      intro _ l members hl hx _ hmembers hstand
      exact ⟨l, members, rfl, hl, .refl l, hmembers, hstand, fun _ h => h, by simp⟩
  | cons first rest ih =>
      intro hiris l members hl hx hpending hmembers hstand
      obtain ⟨b, d, hb, hd, hfirst⟩ := hiris first List.mem_cons_self
      obtain ⟨y, m, hrun, hreferred⟩ :=
        exists_referred he hf hresolve hreference hl hx hpending hb hd
      obtain ⟨-, hbase, -⟩ := hl.of_image hx he
      have hm := hreferred.consistent
      have hxm := hreferred.grows.image hx
      have hkept := hreferred.kept.trans hmembers
      obtain ⟨other, hother, hinverse⟩ := hreferred.fits
      obtain ⟨u, hput, hlinked, hagrees, hheld⟩ := hm.linked.put_member hbase
        (hm.class_of_image hxm he) hf hreferred.base_le hother hinverse hkind hkept
      have hmem : ∀ item, item ∈ m.store.insertMember (.entity y) members ↔
          item ∈ members ∨ item = .entity y := fun item =>
        hm.linked.mem_insertMember hbase hkept hreferred.base_le (Store.lt_next_of_class hother)
      obtain ⟨hu, hgrows⟩ := hreferred.put he hf hx hlinked hagrees
      -- The rest goes on from the state in which the first one is a member.
      obtain ⟨n, loaded, hrest, hn, hlater, hloaded, hall, hsub, hcover⟩ :=
        ih (fun i hi => hiris i (List.mem_cons_of_mem _ hi)) { m with store := u }
          (m.store.insertMember (.entity y) members) hu hxm
          (Nat.le_trans hreferred.grows.pending_le hpending) hheld (by
            intro item hitem
            rcases (hmem item).mp hitem with hitem | rfl
            · obtain ⟨c, z, hc, hz, heq⟩ := hstand item hitem
              exact ⟨c, z, hc, hreferred.grows.image hz, heq⟩
            · exact ⟨b, y, hb, hreferred.image, rfl⟩)
      refine ⟨n, loaded, ?_, hn,
        (hgrows.trans hlater hu fun z g hz => ⟨a, hz.1 ▸ hx⟩).mono (by simp),
        hloaded, hall, fun item hitem => hsub item ((hmem item).mpr (.inl hitem)), ?_⟩
      · rw [← hfirst]
        exact (run_bind_ok (run_refer hrun hput)).trans hrest
      · intro i hi
        rcases List.mem_cons.mp hi with rfl | hi
        · exact ⟨b, d, y, hd, hfirst, hlater.image hreferred.image,
            hsub _ ((hmem _).mpr (.inr rfl))⟩
        · exact hcover i hi

/-- **A collection is filled with the entities that stand for its members.** -/
theorem loads_collection (hresolve : Resolves t base bound resolve) (hkind : f.kind = .collection)
    (ha : t.reached a) : Loads t base bound a x [f] (t.source.loadField resolve x e.iri f) := by
  intro l hl hx hpending hempty
  have hempty := hempty f List.mem_cons_self
  have hreference : f.kind.isReference = true := by rw [hkind]; rfl
  have hmem := fun i =>
    t.stated.mem_sortedIris t.regular (t.listed a ha) he hf hreference (i := i)
  obtain ⟨written, hwritten, hitems, hadmits⟩ := t.regular.exists_content he hf
  unfold Store.Admits at hadmits
  simp only [hkind] at hadmits
  obtain ⟨members, rfl, hmembers⟩ := hadmits
  rw [Content.items] at hitems
  obtain ⟨hcleared, hfirst, hheld⟩ := hl.assign hx he hf hempty (.set [])
    (by simp [Content.items])
  obtain ⟨m, loaded, hrun, hm, hgrows, hloaded, honly, -, hcover⟩ :=
    loads_members he hf hresolve hkind (t.graph.sortedIris e.iri f.predicate)
      (fun i hi => (hmem i).mp hi) _ [] hcleared (hfirst.image hx)
      (Nat.le_trans hfirst.pending_le hpending) hheld (by simp [Stand])
  refine ⟨m, ?_, hm, (hfirst.trans hgrows hcleared fun z g hz => ⟨a, hz.1 ▸ hx⟩).mono (by simp), ?_⟩
  · unfold EntitySource.loadField
    simp only [hkind]
    exact hrun
  · intro g hg
    rw [List.mem_singleton.mp hg]
    refine ⟨.set members, .set loaded, hwritten, hloaded, .collection ?_ ?_⟩
    · intro b hb
      obtain ⟨c, d, heq, hd, -⟩ := hmembers _ hb
      obtain rfl := Item.entity.inj heq
      have hin := (hmem d.iri).mpr ⟨b, d, by rw [hitems]; exact hb, hd, rfl⟩
      obtain ⟨c, d', y, hd', hiri, hy, hin⟩ := hcover d.iri hin
      obtain rfl := t.regular.distinct c b d' d hd' hd hiri
      exact ⟨y, hy, hin⟩
    · intro item hitem
      obtain ⟨b, y, hb, hy, heq⟩ := honly item hitem
      exact ⟨b, y, by rwa [hitems] at hb, hy, heq⟩

/-- **Every field is filled.** -/
theorem loads_field (hresolve : Resolves t base bound resolve) :
    Loads t base bound a x [f] (t.source.loadField resolve x e.iri f) := by
  intro l hl hx
  obtain ⟨ha, -, -⟩ := hl.of_image hx he
  refine (?_ : Loads t base bound a x [f] _) l hl hx
  cases hkind : f.kind with
  | value => exact loads_values he hf (by rw [hkind]; rfl) ha
  | array => exact loads_values he hf (by rw [hkind]; rfl) ha
  | object => exact loads_object he hf hresolve hkind ha
  | collection => exact loads_collection he hf hresolve hkind ha

end Field

/-! ### All fields -/

section Fields

variable {bound : Nat} {resolve : Resolver}

theorem loads_nil : Loads t base bound a x [] (pure ()) :=
  fun l hl _ _ _ => ⟨l, rfl, hl, .refl l, by simp⟩

/-- Work on some fields and then on others fills both. -/
theorem Loads.append {fs gs : List EntityField} {first rest : Loading Unit}
    (he : t.store.entity? a = some e) (hfs : ∀ f ∈ fs, f ∈ t.classes.fields e.className)
    (hgs : ∀ g ∈ gs, g ∈ t.classes.fields e.className) (hapart : ∀ f ∈ fs, f ∉ gs)
    (hfirst : Loads t base bound a x fs first) (hrest : Loads t base bound a x gs rest) :
    Loads t base bound a x (fs ++ gs) (first >>= fun _ => rest) := by
  intro l hl hx hpending hempty
  obtain ⟨m, hrun, hm, hgrows, hfilled⟩ :=
    hfirst l hl hx hpending fun f hf => hempty f (List.mem_append_left _ hf)
  have hxm := hgrows.image hx
  obtain ⟨n, hrun', hn, hlater, hfilled'⟩ :=
    hrest m hm hxm (Nat.le_trans hgrows.pending_le hpending) (by
      intro g hg
      rw [hgrows.field a x e hx he g (hgs g hg) fun h => hapart g h.2 hg]
      exact hempty g (List.mem_append_right _ hg))
  refine ⟨n, by rw [run_bind_ok hrun, hrun'], hn,
    (hgrows.trans hlater hm fun z g hz => ⟨a, hz.1 ▸ hx⟩).mono ?_, ?_⟩
  · rintro z f (⟨rfl, hf⟩ | ⟨rfl, hf⟩)
    · exact ⟨rfl, List.mem_append_left _ hf⟩
    · exact ⟨rfl, List.mem_append_right _ hf⟩
  · intro f hf
    rcases List.mem_append.mp hf with hf | hf
    · exact (hfilled f hf).mono hlater.lookup
        (hlater.field a x e hxm he f (hfs f hf) fun h => hapart f hf h.2)
    · exact hfilled' f hf

/-- A loop fills the fields that its steps do. -/
theorem loads_forM {α : Type} (fields : α → List EntityField) (work : α → Loading Unit)
    (he : t.store.entity? a = some e) :
    ∀ (cs : List α), (∀ f ∈ cs.flatMap fields, f ∈ t.classes.fields e.className) →
      (cs.flatMap fields).Nodup → (∀ c ∈ cs, Loads t base bound a x (fields c) (work c)) →
      Loads t base bound a x (cs.flatMap fields) (cs.forM work) := by
  intro cs
  induction cs with
  | nil => exact fun _ _ _ => loads_nil
  | cons c rest ih =>
      intro hfields hnodup hwork
      rw [List.flatMap_cons] at hfields hnodup ⊢
      obtain ⟨-, hrest, hapart⟩ := List.nodup_append.mp hnodup
      exact Loads.append he (fun f hf => hfields f (List.mem_append_left _ hf))
        (fun f hf => hfields f (List.mem_append_right _ hf))
        (fun f hf hin => hapart f hf f hin rfl) (hwork c List.mem_cons_self)
        (ih (fun f hf => hfields f (List.mem_append_right _ hf)) hrest
          fun d hd => hwork d (List.mem_cons_of_mem _ hd))

/-- **Loading the fields of an entity fills all of them.** -/
theorem loads_fields (hresolve : Resolves t base bound resolve) (he : t.store.entity? a = some e) :
    Loads t base bound a x (t.classes.fields e.className) (t.source.loadFields resolve x) := by
  have hnodup : (t.classes.fields e.className).Nodup :=
    ((t.regular.declared a e he).apart.nodup).of_map _
  have hloop : Loads t base bound a x (t.classes.fields e.className)
      ((t.classes.lineage e.className).reverse.forM (t.source.loadClass resolve x e.iri)) := by
    refine loads_forM _ _ he _ (fun f hf => hf) hnodup fun c hc => ?_
    have hfields : ∀ f ∈ c.fields, f ∈ t.classes.fields e.className :=
      fun f hf => List.mem_flatMap.mpr ⟨c, hc, hf⟩
    have hwork : t.source.loadClass resolve x e.iri c =
        c.fields.forM (t.source.loadField resolve x e.iri) := by
      unfold EntitySource.loadClass
      simp [Transcript.source]
    rw [hwork]
    have hown : (c.fields.flatMap fun f => [f]) = c.fields := by simp
    have hloop := loads_forM (fun f => [f]) (t.source.loadField resolve x e.iri) he c.fields
      (by rwa [hown]) (by rw [hown]; exact (List.nodup_flatMap.mp hnodup).1 c hc)
      fun f hf => loads_field he (hfields f hf) hresolve
    rwa [hown] at hloop
  intro l hl hx hpending hempty
  obtain ⟨m, hrun, hrest⟩ := hloop l hl hx hpending hempty
  refine ⟨m, ?_, hrest⟩
  obtain ⟨-, -, hkey⟩ := hl.of_image hx he
  obtain ⟨made, hmade, hkeys⟩ := Option.map_eq_some_iff.mp hkey
  unfold EntitySource.loadFields
  rw [run_get_bind, hmade]
  have hclass : made.className = e.className := congrArg Prod.fst hkeys
  have hiri : made.iri = e.iri := congrArg Prod.snd hkeys
  simp only [hclass, hiri]
  exact hrun

end Fields

/-! ### Entities that are met first -/

/-- The state in which an entity is made and noted. -/
def make (t : Transcript) (e : Entity) (l : Loaded) : Loaded :=
  (l.create t.classes e.className e.iri).remember e.iri l.store.next

section Make

variable (he : t.store.entity? a = some e) (hnone : l.image? t a = none)

include he hnone

theorem lookup_make (iri : Iri) : (l.make t e).resolved.lookup iri =
    if iri = e.iri then some l.store.next else l.resolved.lookup iri := by
  rw [image?_eq he] at hnone
  exact lookup_meet hnone

theorem image?_make : (l.make t e).image? t a = some l.store.next := by
  rw [image?_eq he, lookup_make he hnone, if_pos rfl]

theorem image?_make_of_ne (hne : b ≠ a) : (l.make t e).image? t b = l.image? t b := by
  unfold image?
  cases hd : t.store.entity? b with
  | none => rfl
  | some d =>
      have hiri : d.iri ≠ e.iri := fun h => hne (t.regular.distinct b a d e hd he h)
      rw [Option.bind_some, Option.bind_some, lookup_make he hnone, if_neg hiri]

/-- Making an entity to meet leaves fewer of them. -/
theorem pending_make_lt (ha : t.reached a) : (l.make t e).pending t < l.pending t := by
  rw [image?_eq he] at hnone
  exact unmet_meet_lt hnone (t.aimed a e ha he)

/-- **A new entity is consistent with what was made before.** -/
theorem Consistent.make (hl : l.Consistent t base) (ha : t.reached a) :
    (l.make t e).Consistent t base := by
  have hadded : (l.make t e).store = l.store.add (.ofClass t.classes e.className e.iri) := rfl
  refine ⟨?_, ?_, ?_, ?_⟩
  · intro iri x hx
    rw [lookup_make he hnone] at hx
    by_cases hiri : iri = e.iri
    · rw [if_pos hiri, Option.some.injEq] at hx
      refine ⟨a, e, ha, he, hiri.symm, hx ▸ hl.base_le, ?_⟩
      rw [hadded, ← hx, Store.key?_add_self, Entity.key_ofClass]
      rfl
    · rw [if_neg hiri] at hx
      obtain ⟨b, d, hb, hd, hdiri, hbase, hkey⟩ := hl.known iri x hx
      refine ⟨b, d, hb, hd, hdiri, hbase, ?_⟩
      have hclass : l.store.class? x = some d.className := by
        rw [Store.class?_eq, hkey]
        rfl
      rw [hadded, Store.key?_add_of_lt (Store.lt_next_of_class hclass), hkey]
  · intro x hx hnext
    rw [hadded, Store.next_add] at hnext
    rcases Nat.lt_or_eq_of_le (Nat.lt_succ_iff.mp hnext) with hlt | rfl
    · obtain ⟨iri, hiri⟩ := hl.covered x hx hlt
      refine ⟨iri, ?_⟩
      rw [lookup_make he hnone, if_neg, hiri]
      rintro rfl
      rw [image?_eq he, hiri] at hnone
      simp at hnone
    · exact ⟨e.iri, by rw [lookup_make he hnone, if_pos rfl]⟩
  · refine hl.linked.add (t.regular.declared a e he).apart fun x hx hnext hkey => ?_
    obtain ⟨iri, hiri⟩ := hl.covered x hx hnext
    obtain ⟨b, d, -, -, hdiri, -, hdkey⟩ := hl.known iri x hiri
    rw [hkey, Option.some.injEq] at hdkey
    have hsame : e.iri = iri := (congrArg Prod.snd hdkey).trans hdiri
    rw [image?_eq he, hsame, hiri] at hnone
    simp at hnone
  · rw [hadded, Store.next_add]
    exact Nat.le_succ_of_le hl.base_le

/-- A new entity that has had its fields filled. -/
theorem Grows.of_make (hl : l.Consistent t base)
    (hgrows : Grows t (fun y g => y = l.store.next ∧ g ∈ t.classes.fields e.className)
      (l.make t e) m)
    (hfilled : ∀ f ∈ t.classes.fields e.className, m.Filled t a l.store.next f) :
    Grows t (fun _ _ => False) l m := by
  have hother : ∀ {c z}, l.image? t c = some z → c ≠ a := by
    rintro c z hc rfl
    rw [hnone] at hc
    simp at hc
  refine ⟨?_, ?_, ?_⟩
  · intro iri x hx
    refine hgrows.lookup iri x ?_
    rw [lookup_make he hnone, if_neg, hx]
    rintro rfl
    rw [image?_eq he, hx] at hnone
    simp at hnone
  · intro b y d hy hd f hf _
    have hlt := Store.lt_next_of_class (hl.class_of_image hy hd)
    have hmade : (l.make t e).image? t b = some y := by
      rw [image?_make_of_ne he hnone (hother hy), hy]
    rw [hgrows.field b y d hmade hd f hf fun h => Nat.ne_of_lt hlt h.1]
    exact Store.content?_add_of_lt hlt f.name
  · intro b y d hb hy hd f hf
    by_cases hab : b = a
    · subst hab
      obtain rfl := Option.some.inj (hd.symm.trans he)
      obtain rfl : l.store.next = y :=
        Option.some.inj ((hgrows.image (image?_make he hnone)).symm.trans hy)
      exact hfilled f hf
    · exact hgrows.fresh b y d (by rw [image?_make_of_ne he hnone hab, hb]) hy hd f hf

end Make

/-- **To as many levels as there are IRIs to be met, every entity is found or made.** -/
theorem resolves_within : ∀ bound,
    Resolves t base bound (t.source.resolveWithin t.factory (bound + 1)) := by
  intro bound
  induction bound using Nat.strongRecOn with
  | ind bound ih =>
      intro l a e expected above hl ha he hexpected hbelow hpending
      unfold EntitySource.resolveWithin
      rw [run_get_bind]
      cases hx : l.image? t a with
      | some x =>
          refine ⟨x, l, ?_, hl, .refl l, hx⟩
          rw [← image?_eq he, hx]
          rfl
      | none =>
          have hless := pending_make_lt he hx ha
          obtain ⟨less, rfl⟩ : ∃ less, bound = less + 1 := ⟨bound - 1, by omega⟩
          have hmade := hl.make he hx ha
          have hempty : ∀ f ∈ t.classes.fields e.className,
              (l.make t e).store.content? l.store.next f.name = some (.initial f.kind) := by
            intro f hf
            rw [show (l.make t e).store =
                l.store.add (.ofClass t.classes e.className e.iri) from rfl,
              Store.content?_add_self]
            exact Entity.content?_ofClass_field (t.regular.declared a e he).apart e.iri hf
          obtain ⟨m, hrun, hm, hgrows, hfilled⟩ :=
            loads_fields (ih less (Nat.lt_succ_self less)) he (l.make t e) hmade
              (image?_make he hx) (by omega) hempty
          refine ⟨l.store.next, m, ?_, hm, .of_make he hx hl hgrows hfilled,
            hgrows.image (image?_make he hx)⟩
          have hchoose := t.stated.choose_eq t.regular (t.listed a ha) he hexpected hbelow
          rw [← image?_eq he, hx]
          simp only
          rw [show t.source.classes = t.classes from rfl, show t.source.graph = t.graph from rfl,
            hchoose, run_settled_bind, run_get_bind, run_modify_bind]
          exact run_bind_ok hrun

end Loaded

end OntoCode

/-
Both sides of a collection while an entity reads itself.

Two entities with one class and one IRI are equal, and loading may add entities that are
equal to others.  Membership is therefore that of equal entities here, as it is in sets
of them: `Agrees` says that whoever is referred to keeps an equal of the referring
entity, and the other way around.  Where no two entities are equal, it says that both
sides hold the same links.

An entity that reads itself empties each of its collections and fills it again.  Between
the two the sides do not agree, and whoever is not put in again stays linked from the
other side.  `Rereads` says what holds throughout, for as many fields as have been read:
other fields stay as they are, inverse collections only grow, and what is new in them is
referred to.  Each step of a reading keeps it.
-/
import OntoCode.Proofs.Pairing
import OntoCode.Proofs.Readings

namespace OntoCode

open OntoCode.Rdf

/-! ### Both sides of a collection -/

/-- A name that inverse collections of collections have: it is no field's name, and the fields that
it belongs to are collections and no inverse collections themselves. -/
structure EntityClasses.InverseName (classes : EntityClasses) (inverse : String) : Prop where
  nodup : ∀ c, ((classes.fields c).map (·.name)).Nodup
  field : ∀ c, ∀ f ∈ classes.fields c, f.name ≠ inverse
  collection : ∀ c, ∀ f ∈ classes.fields c, f.inverse = some inverse → f.kind = .collection
  source : ∀ c, ∀ f ∈ classes.fields c, f.inverse = some inverse →
    ∀ d, ∀ g ∈ classes.fields d, g.inverse ≠ some f.name

namespace Store

/-- An attribute of the first entity holds one that equals the second one. -/
def Has (s : Store) (x : EntityId) (name : String) (y : EntityId) : Prop :=
  ∃ item ∈ s.items x name, s.sameItem (.entity y) item = true

/-- An entity has a field to which inverse collections of a name belong. -/
def SourceBy (classes : EntityClasses) (inverse : String) (s : Store) (x : EntityId)
    (f : EntityField) : Prop :=
  ∃ c, s.class? x = some c ∧ f ∈ classes.fields c ∧ f.inverse = some inverse

/-- **Both sides agree**: whoever an entity refers to has it in the inverse collection, and whoever
is in an inverse collection refers to its owner. -/
structure Agrees (classes : EntityClasses) (inverse : String) (s : Store) : Prop where
  back : ∀ x f, s.SourceBy classes inverse x f → ∀ y, .entity y ∈ s.items x f.name →
    s.Has y inverse x
  forth : ∀ y x, .entity x ∈ s.items y inverse →
    ∃ f, s.SourceBy classes inverse x f ∧ s.Has x f.name y

/-- What was read since: the fields of entities that were added, and some fields of one entity. -/
def ReadSince (s : Store) (id : EntityId) (done : List EntityField) (x : EntityId)
    (f : EntityField) : Prop :=
  s.next ≤ x ∨ x = id ∧ f ∈ done

/-- What the reading of some fields of an entity does to the inverse collections of a name. -/
structure Rereads (classes : EntityClasses) (inverse : String) (id : EntityId)
    (done : List EntityField) (s t : Store) : Prop where
  /-- Entities stay what they are. -/
  key : ∀ x key, s.key? x = some key → t.key? x = some key
  /-- Fields that were not read hold what they held. -/
  unread : ∀ x f, s.SourceBy classes inverse x f → ¬ (x = id ∧ f ∈ done) →
    t.items x f.name = s.items x f.name
  /-- Inverse collections lose nothing. -/
  grows : ∀ y item, item ∈ s.items y inverse → item ∈ t.items y inverse
  /-- Whoever is new in one refers to its owner. -/
  listed : ∀ y x, .entity x ∈ t.items y inverse → .entity x ∈ s.items y inverse ∨
    ∃ f, t.SourceBy classes inverse x f ∧ s.ReadSince id done x f ∧ t.Has x f.name y
  /-- Whoever was read to be referred to has the entity in its inverse collection. -/
  back : ∀ x f, t.SourceBy classes inverse x f → s.ReadSince id done x f →
    ∀ y, .entity y ∈ t.items x f.name → t.Has y inverse x

variable {classes : EntityClasses} {inverse : String} {s t u : Store} {id : EntityId}
  {done : List EntityField} {f : EntityField}

/-! ### What entities keep -/

theorem lt_next_of_has {x y : EntityId} {name : String} (h : s.Has x name y) : x < s.next := by
  obtain ⟨item, hitem, -⟩ := h
  exact lt_next_of_mem_items hitem

/-- What equals an entity of the store is an entity of it. -/
theorem exists_of_sameItem {y : EntityId} (hy : y < s.next) {item : Item}
    (h : s.sameItem (.entity y) item = true) :
    ∃ z, item = .entity z ∧ z < s.next ∧ s.key? y = s.key? z := by
  cases item with
  | null => simp [sameItem] at h
  | native content => simp [sameItem] at h
  | entity z =>
      have hkeys : s.key? y = s.key? z := by simpa [sameItem, same] using h
      obtain ⟨e, he⟩ := entity?_isSome_iff.mpr hy
      have hkey : s.key? z = some e.key := by
        rw [← hkeys, key?, he]
        rfl
      obtain ⟨e', he', -⟩ := Option.map_eq_some_iff.mp hkey
      exact ⟨z, rfl, entity?_isSome_iff.mp ⟨e', he'⟩, hkeys⟩

section Keys

variable (hkey : ∀ x key, s.key? x = some key → t.key? x = some key)

include hkey

theorem key?_of_lt {x : EntityId} (hx : x < s.next) : t.key? x = s.key? x := by
  obtain ⟨e, he⟩ := entity?_isSome_iff.mpr hx
  have hkeyx : s.key? x = some e.key := by simp [key?, he]
  rw [hkeyx, hkey x e.key hkeyx]

/-- An attribute that loses nothing keeps its members. -/
theorem Has.mono {x y : EntityId} {name other : String} (h : s.Has x name y) (hy : y < s.next)
    (hitems : ∀ item ∈ s.items x name, item ∈ t.items x other) : t.Has x other y := by
  obtain ⟨item, hitem, hsame⟩ := h
  obtain ⟨z, rfl, hz, hkeys⟩ := exists_of_sameItem hy hsame
  refine ⟨.entity z, hitems _ hitem, ?_⟩
  simp [sameItem, same, key?_of_lt hkey hy, key?_of_lt hkey hz, hkeys]

theorem SourceBy.mono {x : EntityId} (h : s.SourceBy classes inverse x f) :
    t.SourceBy classes inverse x f := by
  obtain ⟨c, hc, hf⟩ := h
  exact ⟨c, by rw [class?_of_key (key?_of_lt hkey (lt_next_of_class hc)), hc], hf⟩

theorem SourceBy.of_lt {x : EntityId} (h : t.SourceBy classes inverse x f) (hx : x < s.next) :
    s.SourceBy classes inverse x f := by
  obtain ⟨c, hc, hf⟩ := h
  exact ⟨c, by rw [← class?_of_key (key?_of_lt hkey hx), hc], hf⟩

end Keys

/-! ### Where no two entities are equal -/

/-- Where no two entities are equal, an attribute has an entity if it holds this one. -/
theorem Distinct.has_iff (hs : s.Distinct) {x y : EntityId} {name : String} (hy : y < s.next) :
    s.Has x name y ↔ .entity y ∈ s.items x name := by
  constructor
  · rintro ⟨item, hitem, hsame⟩
    obtain ⟨z, rfl, hz, hkeys⟩ := exists_of_sameItem hy hsame
    rwa [hs y hy z hz (by simp [same, hkeys])]
  · intro hmem
    exact ⟨.entity y, hmem, by simp [sameItem]⟩

/-- **Where no two entities are equal, both sides agree if an entity refers to another one exactly
if it is in the inverse collection there.** -/
theorem Distinct.agrees_iff (hs : s.Distinct) : s.Agrees classes inverse ↔
    ∀ x y, (∃ f, s.SourceBy classes inverse x f ∧ .entity y ∈ s.items x f.name) ↔
      .entity x ∈ s.items y inverse := by
  constructor
  · intro h x y
    constructor
    · rintro ⟨f, hf, hy⟩
      exact (hs.has_iff (lt_next_of_mem_items hy)).mp (h.back x f hf y hy)
    · intro hx
      obtain ⟨f, hf, hy⟩ := h.forth y x hx
      exact ⟨f, hf, (hs.has_iff (lt_next_of_mem_items hx)).mp hy⟩
  · intro h
    refine ⟨fun x f hf y hy => ?_, fun y x hx => ?_⟩
    · exact ⟨.entity x, (h x y).mp ⟨f, hf, hy⟩, by simp [sameItem]⟩
    · obtain ⟨f, hf, hy⟩ := (h x y).mpr hx
      exact ⟨f, hf, .entity y, hy, by simp [sameItem]⟩

/-! ### What putting changes -/

/-- An attribute gains an entity at most, and has it afterwards. -/
structure Gained (s t : Store) (x : EntityId) (name : String) (y : EntityId) : Prop where
  kept : ∀ item ∈ s.items x name, item ∈ t.items x name
  only : ∀ item ∈ t.items x name, item ∈ s.items x name ∨ item = .entity y
  has : t.Has x name y

theorem changesAt_insertInto {x : EntityId} {name : String} {item : Item}
    (h : s.insertInto? x name item = some t) :
    ChangesAt (fun z other => z = x ∧ other = name) s t := by
  obtain ⟨members, -, rfl⟩ := insertInto?_eq_some.mp h
  exact .assign ..

theorem changesAt_release {sides : LinkSides} {x : EntityId} {item : Item}
    (h : s.release? sides x item = some t) :
    ChangesAt (fun _ name => name = sides.inverse) s t := by
  rcases release?_cases h with rfl | ⟨p, herase⟩
  · exact .refl t
  · obtain ⟨members, -, rfl⟩ := eraseFrom?_eq_some.mp herase
    exact (ChangesAt.assign ..).mono fun _ _ hat => hat.2

theorem changesAt_point {sides : LinkSides} {x : EntityId} {item : Item}
    (h : s.point? sides x item = some t) :
    ChangesAt (fun z name => z = x ∧ name = sides.forward ∨ name = sides.inverse) s t := by
  rcases point?_cases h with rfl | hinsert | ⟨released, hreleased, rfl⟩
  · exact .refl t
  · exact (changesAt_insertInto hinsert).mono fun _ _ hat => .inl hat
  · exact ((changesAt_release hreleased).trans (.assign ..)).mono fun _ _ hat => hat.symm

/-- **Putting changes the field and inverse collections of its name.** -/
theorem changesAt_put (x : EntityId) (f : EntityField) (item : Item) :
    ChangesAt (fun z name => z = x ∧ name = f.name ∨ f.inverse = some name) s
      (s.put x f item).store := by
  rcases s.put_cases x f item with heq | ⟨content, -, heq⟩ |
    ⟨inverse, pointed, hinverse, hpoint, hback⟩
  · rw [heq]
    exact .refl s
  · rw [heq]
    exact (ChangesAt.assign ..).mono fun _ _ => .inl
  · have hpointed : ChangesAt (fun z name => z = x ∧ name = f.name ∨ f.inverse = some name) s
        pointed := by
      refine (changesAt_point hpoint).mono fun z name hat => hat.imp_right fun hname => ?_
      rw [hinverse, hname]
    rcases hback with heq | hback
    · rwa [heq]
    · rcases pointBack?_cases hback with heq | ⟨y, hinsert⟩
      · rwa [heq]
      · refine (hpointed.trans (changesAt_insertInto hinsert)).mono fun z name hat => ?_
        rcases hat with hat | ⟨-, hname⟩
        · exact hat
        · exact .inr (by rw [hinverse, hname])

theorem gained_insertInto {x y : EntityId} {name : String}
    (h : s.insertInto? x name (.entity y) = some t) : Gained s t x name y := by
  obtain ⟨members, hmembers, ht⟩ := insertInto?_eq_some.mp h
  have hx : x < s.next := by
    obtain ⟨e, he, -⟩ := Option.bind_eq_some_iff.mp hmembers
    exact entity?_isSome_iff.mp ⟨e, he⟩
  have hbefore : s.items x name = members := items_of_content hmembers
  have hafter : t.items x name = s.insertMember (.entity y) members := by
    rw [ht]
    exact items_of_content (content?_assign_self hx ..)
  have hsame : t.sameItem = s.sameItem := by rw [ht, sameItem_assign]
  unfold insertMember at hafter
  split at hafter
  · next hany =>
      obtain ⟨m, hm, heq⟩ := List.any_eq_true.mp hany
      exact ⟨by simp [hafter, hbefore], by simp +contextual [hafter, hbefore],
        m, by rwa [hafter], by rwa [hsame]⟩
  · exact ⟨by simp +contextual [hafter, hbefore], by simp [hafter, hbefore],
      .entity y, by simp [hafter], by simp [sameItem]⟩

/-- **What is put into a collection with an inverse is gained there, and at the other end.** -/
theorem gained_put {x y : EntityId} (hkind : f.kind = .collection)
    (hinverse : f.inverse = some inverse) (hname : f.name ≠ inverse)
    (hput : (s.put x f (.entity y)).failure = none) (ht : (s.put x f (.entity y)).store = t) :
    ChangesAt (fun z name => z = x ∧ name = f.name ∨ z = y ∧ name = inverse) s t ∧
      Gained s t x f.name y ∧ Gained s t y inverse x := by
  have hpoint : ∀ r, s.point? ⟨f.name, inverse, f.kind = .object⟩ x (.entity y) = r →
      s.insertInto? x f.name (.entity y) = r := by
    rintro r rfl
    simp [point?, hkind]
  unfold put at hput ht
  simp only [hinverse, link] at hput ht
  cases hpointed : s.point? ⟨f.name, inverse, f.kind = .object⟩ x (.entity y) with
  | none => simp [hpointed] at hput
  | some pointed =>
      simp only [hpointed] at hput ht
      cases hback : pointed.pointBack? ⟨f.name, inverse, f.kind = .object⟩ x (.entity y) with
      | none => simp [hback] at hput
      | some linked =>
          simp only [hback] at ht
          obtain rfl := ht
          have hfirst := hpoint _ hpointed
          have hsecond : pointed.insertInto? y inverse (.entity x) = some linked := hback
          have hforth := changesAt_insertInto hfirst
          have hback := changesAt_insertInto hsecond
          have hgained := gained_insertInto hfirst
          have hkept := gained_insertInto hsecond
          -- The two attributes are different ones, even if both entities are the same.
          have hfield : linked.items x f.name = pointed.items x f.name :=
            items_congr (hback.content x f.name fun hat => hname hat.2)
          have hcollection : pointed.items y inverse = s.items y inverse :=
            items_congr (hforth.content y inverse fun hat => hname hat.2.symm)
          have hy : y < pointed.next := by
            rw [← hback.next]
            exact lt_next_of_has hkept.has
          refine ⟨hforth.trans hback, ⟨?_, ?_, ?_⟩, ⟨?_, ?_, hkept.has⟩⟩
          · rw [hfield]
            exact hgained.kept
          · rw [hfield]
            exact hgained.only
          · refine hgained.has.mono (fun z key hkey => by rw [hback.key, hkey]) hy ?_
            rw [hfield]
            exact fun _ hitem => hitem
          · rw [← hcollection]
            exact hkept.kept
          · rw [← hcollection]
            exact hkept.only

/-! ### Steps of a reading -/

namespace Rereads

theorem refl (s : Store) : Rereads classes inverse id [] s s where
  key := fun _ _ h => h
  unread := fun _ _ _ _ => rfl
  grows := fun _ _ h => h
  listed := fun _ _ h => .inl h
  back := by
    rintro x f ⟨c, hc, -⟩ (hx | ⟨-, hf⟩)
    · exact absurd (lt_next_of_class hc) (Nat.not_lt_of_le hx)
    · exact absurd hf List.not_mem_nil

/-- Entities that are met meanwhile read themselves only. -/
theorem trans {other : EntityId} (hst : Rereads classes inverse id done s t)
    (htu : Rereads classes inverse other [] t u) : Rereads classes inverse id done s u where
  key := fun x key h => htu.key x key (hst.key x key h)
  unread := by
    intro x f hf hread
    rw [htu.unread x f (hf.mono hst.key) (by simp), hst.unread x f hf hread]
  grows := fun y item h => htu.grows y item (hst.grows y item h)
  listed := by
    intro y x hx
    rcases htu.listed y x hx with hx | ⟨f, hf, hread, hhas⟩
    · refine (hst.listed y x hx).imp_right fun ⟨f, hf, hread, hhas⟩ => ?_
      refine ⟨f, hf.mono htu.key, hread, hhas.mono htu.key (lt_next_of_mem_items hx) ?_⟩
      rw [htu.unread x f hf (by simp)]
      exact fun _ h => h
    · have hnew : t.next ≤ x := hread.resolve_right (by simp)
      exact .inr ⟨f, hf, .inl (Nat.le_trans (next_le_of_key hst.key) hnew), hhas⟩
  back := by
    intro x f hf hread y hy
    by_cases hx : x < t.next
    · have hft := hf.of_lt htu.key hx
      rw [htu.unread x f hft (by simp)] at hy
      exact (hst.back x f hft hread y hy).mono htu.key hx (htu.grows y)
    · exact htu.back x f hf (.inl (Nat.le_of_not_lt hx)) y hy

/-- A new entity that has read all its fields is one that was met. -/
theorem of_add {c : String} {iri : Iri} (other : EntityId)
    (h : Rereads classes inverse s.next (classes.fields c) (s.add (.ofClass classes c iri)) t) :
    Rereads classes inverse other [] s t := by
  have hkeys : ∀ x key, s.key? x = some key →
      (s.add (.ofClass classes c iri)).key? x = some key := by
    intro x key hkey
    obtain ⟨e, he, -⟩ := Option.map_eq_some_iff.mp hkey
    rw [key?_add_of_lt (entity?_isSome_iff.mp ⟨e, he⟩), hkey]
  have hitems : ∀ {x : EntityId} {name : String}, x < s.next →
      (s.add (.ofClass classes c iri)).items x name = s.items x name :=
    fun hx => items_congr (content?_add_of_lt hx _)
  have hnext : ∀ {x : EntityId},
      s.next ≤ x ↔ (s.add (.ofClass classes c iri)).next ≤ x ∨ x = s.next := by
    intro x
    rw [next_add]
    exact Nat.le_iff_lt_or_eq.trans (or_congr_right eq_comm)
  refine ⟨fun x key hkey => h.key x key (hkeys x key hkey), ?_, ?_, ?_, ?_⟩
  · intro x f hf _
    have hx : x < s.next := by
      obtain ⟨d, hd, -⟩ := hf
      exact lt_next_of_class hd
    rw [h.unread x f (hf.mono hkeys) fun hread => Nat.ne_of_lt hx hread.1, hitems hx]
  · intro y item hitem
    exact h.grows y item (by rwa [hitems (lt_next_of_mem_items hitem)])
  · intro y x hx
    rcases h.listed y x hx with hx | ⟨f, hf, hread, hhas⟩
    · by_cases hy : y < s.next
      · rw [hitems hy] at hx
        exact .inl hx
      · -- Nothing is in an inverse collection of the new entity yet.
        have hlt := lt_next_of_mem_items hx
        rw [next_add] at hlt
        obtain rfl := (Nat.lt_or_eq_of_le (Nat.lt_succ_iff.mp hlt)).resolve_left hy
        exact absurd hx no_references_add
    · exact .inr ⟨f, hf, .inl (hnext.mpr (hread.imp_right And.left)), hhas⟩
  · intro x f hf hread y hy
    refine h.back x f hf ?_ y hy
    rcases hnext.mp (hread.resolve_right (by simp)) with hlater | rfl
    · exact .inl hlater
    · refine .inr ⟨rfl, ?_⟩
      obtain ⟨d, hd, hfd, -⟩ := hf
      have hkey := h.key s.next (c, iri) (by rw [key?_add_self, Entity.key_ofClass])
      rw [class?_eq, hkey] at hd
      obtain rfl : c = d := Option.some.inj hd
      exact hfd

/-- Changes elsewhere are no reading. -/
theorem of_changes {place : EntityId → String → Prop} (other : EntityId)
    (hchanges : ChangesAt place s t) (hinverse : ∀ y, ¬ place y inverse)
    (hsource : ∀ x f, s.SourceBy classes inverse x f → ¬ place x f.name) :
    Rereads classes inverse other [] s t := by
  have hcollections : ∀ y, t.items y inverse = s.items y inverse :=
    fun y => items_congr (hchanges.content y inverse (hinverse y))
  refine ⟨fun x key h => by rw [hchanges.key, h], ?_, ?_, ?_, ?_⟩
  · exact fun x f hf _ => items_congr (hchanges.content x f.name (hsource x f hf))
  · intro y item hitem
    rwa [hcollections]
  · intro y x hx
    rw [hcollections] at hx
    exact .inl hx
  · rintro x f ⟨c, hc, -⟩ (hx | ⟨-, hf⟩)
    · have hlt := lt_next_of_class hc
      rw [hchanges.next] at hlt
      exact absurd hlt (Nat.not_lt_of_le hx)
    · exact absurd hf List.not_mem_nil

/-- A field without the inverse is read without further ado. -/
theorem skip (h : Rereads classes inverse id done s t) (hf : f.inverse ≠ some inverse) :
    Rereads classes inverse id (done ++ [f]) s t := by
  have hread : ∀ {x g}, g.inverse = some inverse → s.ReadSince id (done ++ [f]) x g →
      s.ReadSince id done x g := by
    intro x g hg hread
    refine hread.imp_right fun ⟨hx, hmem⟩ => ⟨hx, ?_⟩
    refine (List.mem_append.mp hmem).resolve_right fun hlast => ?_
    rw [List.mem_singleton.mp hlast] at hg
    exact hf hg
  refine ⟨h.key, ?_, h.grows, ?_, ?_⟩
  · intro x g hg hunread
    exact h.unread x g hg fun ⟨hx, hmem⟩ => hunread ⟨hx, List.mem_append_left _ hmem⟩
  · intro y x hx
    refine (h.listed y x hx).imp_right fun ⟨g, hg, hsince, hhas⟩ => ⟨g, hg, ?_, hhas⟩
    exact hsince.imp_right fun ⟨hx, hmem⟩ => ⟨hx, List.mem_append_left _ hmem⟩
  · rintro x g ⟨c, hc, hgc, hg⟩ hsince
    exact h.back x g ⟨c, hc, hgc, hg⟩ (hread hg hsince)

/-- The entity that reads is still of its class. -/
theorem class?_id (h : Rereads classes inverse id done s t) {c : String}
    (hclass : s.class? id = some c) : t.class? id = some c := by
  rw [class?_of_key (key?_of_lt h.key (lt_next_of_class hclass)), hclass]

section Field

variable (hnames : classes.InverseName inverse) {c : String} (hclass : s.class? id = some c)
  (hf : f ∈ classes.fields c)

include hnames hclass hf

/-- Of the fields of the entity, one alone has a name. -/
theorem eq_of_source (h : Rereads classes inverse id done s t) {g : EntityField}
    (hg : t.SourceBy classes inverse id g) (hname : g.name = f.name) : g = f := by
  obtain ⟨d, hd, hgd, -⟩ := hg
  obtain rfl : c = d := Option.some.inj ((h.class?_id hclass).symm.trans hd)
  exact List.inj_on_of_nodup_map (hnames.nodup c) hgd hf hname

/-- A field that gets something else than entities is read. -/
theorem assign (h : Rereads classes inverse id done s t) {content : Content}
    (hcontent : ∀ y, .entity y ∉ content.items) (hfresh : f ∉ done) :
    Rereads classes inverse id (done ++ [f]) s (t.assign id f.name content) := by
  have hkey : ∀ x key, t.key? x = some key → (t.assign id f.name content).key? x = some key :=
    fun x key hkey => by rw [key?_assign, hkey]
  have hback : ∀ {x g}, (t.assign id f.name content).SourceBy classes inverse x g →
      t.SourceBy classes inverse x g := by
    intro x g hg
    refine hg.mono fun x key hkey => ?_
    rwa [key?_assign] at hkey
  have hcollections : ∀ y, (t.assign id f.name content).items y inverse = t.items y inverse :=
    fun y => items_assign_ne (fun hat => hnames.field c f hf hat.2.symm) _
  refine ⟨fun x key h' => hkey x key (h.key x key h'), ?_, ?_, ?_, ?_⟩
  · intro x g hg hunread
    rw [items_assign_ne fun hat => ?_]
    · exact h.unread x g hg fun ⟨hx, hmem⟩ => hunread ⟨hx, List.mem_append_left _ hmem⟩
    · obtain ⟨rfl, hname⟩ := hat
      obtain rfl := h.eq_of_source hnames hclass hf (hg.mono h.key) hname
      exact hunread ⟨rfl, by simp⟩
  · intro y item hitem
    rw [hcollections]
    exact h.grows y item hitem
  · intro y x hx
    rw [hcollections] at hx
    refine (h.listed y x hx).imp_right fun ⟨g, hg, hsince, hhas⟩ => ?_
    refine ⟨g, hg.mono hkey, hsince.imp_right fun ⟨hx, hmem⟩ => ⟨hx, List.mem_append_left _ hmem⟩,
      hhas.mono hkey (lt_next_of_mem_items hx) ?_⟩
    rw [items_assign_ne fun hat => ?_]
    · exact fun _ hitem => hitem
    · -- The field was not read before.
      obtain ⟨rfl, hname⟩ := hat
      obtain rfl := h.eq_of_source hnames hclass hf hg hname
      rcases hsince with hle | ⟨-, hmem⟩
      · exact absurd (lt_next_of_class hclass) (Nat.not_lt_of_le hle)
      · exact hfresh hmem
  · intro x g hg hsince y hy
    by_cases hat : x = id ∧ g.name = f.name
    · obtain ⟨rfl, hname⟩ := hat
      rw [hname, items_assign_self (lt_next_of_class (h.class?_id hclass))] at hy
      exact absurd hy (hcontent y)
    · rw [items_assign_ne hat] at hy
      have hread : s.ReadSince id done x g := by
        refine hsince.imp_right fun ⟨hx, hmem⟩ => ⟨hx, ?_⟩
        refine (List.mem_append.mp hmem).resolve_right fun hlast => hat ⟨hx, ?_⟩
        rw [List.mem_singleton.mp hlast]
      have hhas := h.back x g (hback hg) hread y hy
      refine hhas.mono hkey (lt_next_of_mem_items hy) ?_
      rw [hcollections]
      exact fun _ hitem => hitem

/-- What is put into a field with the inverse is read, and is linked. -/
theorem put (h : Rereads classes inverse id done s t) (hinverse : f.inverse = some inverse)
    (hdone : f ∈ done) {y : EntityId} (hput : (t.put id f (.entity y)).failure = none) :
    Rereads classes inverse id done s (t.put id f (.entity y)).store := by
  have hname := hnames.field c f hf
  obtain ⟨hchanges, hgained, hkept⟩ :=
    gained_put (hnames.collection c f hf hinverse) hinverse hname hput rfl
  generalize (t.put id f (.entity y)).store = u at hchanges hgained hkept
  have hkey : ∀ x key, t.key? x = some key → u.key? x = some key :=
    fun x key hkey => by rw [hchanges.key, hkey]
  have hback : ∀ {x g}, u.SourceBy classes inverse x g → t.SourceBy classes inverse x g :=
    fun hg => hg.mono fun x key hkey => by rw [← hchanges.key, hkey]
  have hlinked : u.SourceBy classes inverse id f ∧ s.ReadSince id done id f ∧ u.Has id f.name y :=
    ⟨⟨c, by rw [class?_of_key (hchanges.key id), h.class?_id hclass], hf, hinverse⟩,
      .inr ⟨rfl, hdone⟩, hgained.has⟩
  -- Other collections stay as they are, and so do inverse collections of others.
  have hfield : ∀ x g, t.SourceBy classes inverse x g → ¬ (x = id ∧ g.name = f.name) →
      u.items x g.name = t.items x g.name := by
    rintro x g ⟨d, -, hg, -⟩ hne
    refine items_congr (hchanges.content x g.name ?_)
    rintro (hat | ⟨-, hat⟩)
    · exact hne hat
    · exact hnames.field d g hg hat
  have hcollection : ∀ z, z ≠ y → u.items z inverse = t.items z inverse := by
    intro z hz
    refine items_congr (hchanges.content z inverse ?_)
    rintro (⟨-, hat⟩ | ⟨hat, -⟩)
    · exact hname hat.symm
    · exact hz hat
  have hfields : ∀ x g, t.SourceBy classes inverse x g → ∀ item ∈ t.items x g.name,
      item ∈ u.items x g.name := by
    intro x g hg item hitem
    by_cases hat : x = id ∧ g.name = f.name
    · rw [hat.1, hat.2] at hitem ⊢
      exact hgained.kept item hitem
    · rwa [hfield x g hg hat]
  have hcollections : ∀ z, ∀ item ∈ t.items z inverse, item ∈ u.items z inverse := by
    intro z item hitem
    by_cases hz : z = y
    · rw [hz] at hitem ⊢
      exact hkept.kept item hitem
    · rwa [hcollection z hz]
  refine ⟨fun x key h' => hkey x key (h.key x key h'), ?_, ?_, ?_, ?_⟩
  · intro x g hg hunread
    rw [hfield x g (hg.mono h.key) fun hat => ?_, h.unread x g hg hunread]
    obtain ⟨rfl, hat⟩ := hat
    obtain rfl := h.eq_of_source hnames hclass hf (hg.mono h.key) hat
    exact hunread ⟨rfl, hdone⟩
  · exact fun z item hitem => hcollections z item (h.grows z item hitem)
  · intro z x hx
    by_cases hnew : z = y ∧ x = id
    · obtain ⟨rfl, rfl⟩ := hnew
      exact .inr ⟨f, hlinked⟩
    · have hold : .entity x ∈ t.items z inverse := by
        by_cases hz : z = y
        · subst hz
          refine (hkept.only _ hx).resolve_right fun heq => hnew ⟨rfl, ?_⟩
          exact Item.entity.inj heq
        · rwa [hcollection z hz] at hx
      refine (h.listed z x hold).imp_right fun ⟨g, hg, hsince, hhas⟩ => ?_
      exact ⟨g, hg.mono hkey, hsince,
        hhas.mono hkey (lt_next_of_mem_items hold) (hfields x g hg)⟩
  · intro x g hg hsince z hz
    by_cases hnew : (x = id ∧ g.name = f.name) ∧ z = y
    · obtain ⟨⟨rfl, -⟩, rfl⟩ := hnew
      exact hkept.has
    · have hold : .entity z ∈ t.items x g.name := by
        by_cases hat : x = id ∧ g.name = f.name
        · rw [hat.1, hat.2] at hz ⊢
          refine (hgained.only _ hz).resolve_right fun heq => hnew ⟨hat, ?_⟩
          exact Item.entity.inj heq
        · rwa [hfield x g (hback hg) hat] at hz
      exact (h.back x g (hback hg) hsince z hold).mono hkey (lt_next_of_mem_items hold)
        (hcollections z)

/-- What is put into another field is no reading. -/
theorem put_other (h : Rereads classes inverse id done s t) (hinverse : f.inverse ≠ some inverse)
    (item : Item) : Rereads classes inverse id done s (t.put id f item).store := by
  refine h.trans (of_changes id (changesAt_put id f item) ?_ ?_)
  · rintro y (⟨-, hname⟩ | hname)
    · exact hnames.field c f hf hname.symm
    · exact hinverse hname
  · rintro x g hg (⟨rfl, hname⟩ | hname)
    · obtain rfl := h.eq_of_source hnames hclass hf hg hname
      obtain ⟨-, -, -, hback⟩ := hg
      exact hinverse hback
    · obtain ⟨d, -, hgd, hback⟩ := hg
      exact hnames.source d g hgd hback c f hf hname

end Field

end Rereads

end Store

end OntoCode

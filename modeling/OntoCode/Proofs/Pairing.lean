/-
The two sides of every property agree after any calls of `link`.

A call touches up to three entities: the source, the target it had and the one it
gets.  Both sides of the property change in the same way, so it is enough to say what
each of them is afterwards.  With one target per source, the source is in the inverse
collection of its new target and in no other one; with several, it is put into one
more.  An entity that is put into a set or taken out of it is told from the others by
its class and its IRI, which is why no two of them may be equal.

Between the steps of a call the sides differ, so a call is taken as a whole.
-/
import Mathlib.Data.List.Nodup
import OntoCode.Proofs.Linking
import OntoCode.Proofs.Writing

namespace OntoCode

open OntoCode.Rdf

/-! ### Calls -/

/-- A call that links a source to a target.  Without a target it takes away the single one that
the source has. -/
structure LinkCall where
  sides : LinkSides
  source : EntityId
  target : Option EntityId
  deriving DecidableEq, Repr

/-- The target as an item. -/
def LinkCall.item (c : LinkCall) : Item := c.target.elim .null .entity

theorem LinkCall.item_eq_entity {c : LinkCall} {y : EntityId} :
    c.item = .entity y ↔ c.target = some y := by
  unfold item
  cases c.target <;> simp

namespace Store

/-- The store after some calls; a call that fails is the last one. -/
def linkAll (s : Store) : List LinkCall → StoreResult
  | [] => ⟨s, none⟩
  | c :: rest =>
    let linked := s.link c.sides c.source c.item
    match linked.failure with
    | none => linked.store.linkAll rest
    | some _ => linked

/-- What is asked of the entities of a call.  A source with one target need not have the attribute
yet. -/
structure Admissible (s : Store) (c : LinkCall) : Prop where
  source : c.source < s.next
  forward : c.sides.single = false → (s.content? c.source c.sides.forward).isSome
  inverse : ∀ y, c.target = some y → (s.content? y c.sides.inverse).isSome

/-- An attribute holds a set with an item. -/
def HoldsIn (s : Store) (x : EntityId) (name : String) (item : Item) : Prop :=
  ∃ members, s.content? x name = some (.set members) ∧ item ∈ members

end Store

/-! ### Families of properties -/

/-- The attributes of some properties. -/
def attributesOf (family : List LinkSides) : List String :=
  family.flatMap fun p => [p.forward, p.inverse]

section Family

variable {family : List LinkSides} (hnames : (attributesOf family).Nodup) {p q : LinkSides}
  (hp : p ∈ family) (hq : q ∈ family)

include hnames hp hq

theorem attributes_disjoint (hne : p ≠ q) :
    [p.forward, p.inverse].Disjoint [q.forward, q.inverse] := by
  have : Std.Symm (Function.onFun List.Disjoint fun r : LinkSides => [r.forward, r.inverse]) :=
    ⟨fun _ _ h _ hq hp => h hp hq⟩
  exact (List.nodup_flatMap.mp hnames).2.forall hp hq hne

/-- A property is found by the attribute of its sources. -/
theorem eq_of_forward (heq : p.forward = q.forward) : p = q := by
  by_contra hne
  exact attributes_disjoint hnames hp hq hne (a := p.forward) (by simp) (by simp [heq])

/-- A property is found by the attribute of its targets. -/
theorem eq_of_inverse (heq : p.inverse = q.inverse) : p = q := by
  by_contra hne
  exact attributes_disjoint hnames hp hq hne (a := p.inverse) (by simp) (by simp [heq])

theorem forward_ne_inverse : p.forward ≠ q.inverse := by
  intro heq
  by_cases hne : p = q
  · subst hne
    have := (List.nodup_flatMap.mp hnames).1 p hp
    simp [heq] at this
  · exact attributes_disjoint hnames hp hq hne (a := p.forward) (by simp) (by simp [heq])

end Family

/-- What the attribute of a source holds: one target or none, or a set. -/
def LinkSides.Fits (p : LinkSides) (content : Content) : Prop :=
  if p.single then ∃ target : Option EntityId, content = .single (target.elim .null .entity)
  else ∃ members, content = .set members

/-- What the attribute of a source holds at first. -/
def LinkSides.empty (p : LinkSides) : Content := if p.single then .single .null else .set []

namespace Store

variable {s t : Store} {family : List LinkSides}

/-! ### Attributes -/

theorem items_assign_self {x : EntityId} (hx : x < s.next) (name : String) (content : Content) :
    (s.assign x name content).items x name = content.items :=
  items_of_content (content?_assign_self hx name content)

theorem items_assign_ne {x z : EntityId} {name other : String} (h : ¬ (z = x ∧ other = name))
    (content : Content) : (s.assign x name content).items z other = s.items z other :=
  items_congr (content?_assign_ne h content)

/-! ### Both sides -/

/-- The attributes of the properties are empty wherever an entity has them. -/
structure Unlinked (family : List LinkSides) (s : Store) : Prop where
  forward : ∀ p ∈ family, ∀ x content, s.content? x p.forward = some content → content = p.empty
  inverse : ∀ p ∈ family, ∀ y content, s.content? y p.inverse = some content → content = .set []

/-- The attributes of the properties hold what they are for wherever an entity has them. -/
structure Shaped (family : List LinkSides) (s : Store) : Prop where
  forward : ∀ p ∈ family, ∀ x content, s.content? x p.forward = some content → p.Fits content
  inverse : ∀ p ∈ family, ∀ y content, s.content? y p.inverse = some content →
    ∃ members, content = .set members

/-- **Both sides of each property agree**: a source refers to a target if and only if the target
keeps the source. -/
structure Paired (family : List LinkSides) (s : Store) : Prop where
  distinct : s.Distinct
  shaped : s.Shaped family
  agree : ∀ p ∈ family, ∀ x y, .entity y ∈ s.items x p.forward ↔ .entity x ∈ s.items y p.inverse

theorem Unlinked.shaped (h : s.Unlinked family) : s.Shaped family := by
  refine ⟨fun p hp x content hcontent => ?_,
    fun p hp y content hcontent => ⟨[], h.inverse p hp y content hcontent⟩⟩
  rw [h.forward p hp x content hcontent, LinkSides.empty, LinkSides.Fits]
  split
  · exact ⟨none, rfl⟩
  · exact ⟨[], rfl⟩

/-- Where nothing is linked the sides agree. -/
theorem Unlinked.paired (h : s.Unlinked family) (hdistinct : s.Distinct) : s.Paired family := by
  refine ⟨hdistinct, h.shaped, fun p hp x y => iff_of_false (fun hy => ?_) (fun hx => ?_)⟩
  · obtain ⟨content, hcontent, hmem⟩ := exists_content_of_mem_items hy
    rw [h.forward p hp x content hcontent, LinkSides.empty] at hmem
    split at hmem <;> simp [Content.items] at hmem
  · obtain ⟨content, hcontent, hmem⟩ := exists_content_of_mem_items hx
    rw [h.inverse p hp y content hcontent] at hmem
    simp [Content.items] at hmem

section Shaped

variable (hnames : (attributesOf family).Nodup) (h : s.Shaped family) {p : LinkSides}
  (hp : p ∈ family)

include hnames h hp

theorem Shaped.assign_forward (x : EntityId) {content : Content} (hfits : p.Fits content) :
    (s.assign x p.forward content).Shaped family := by
  refine ⟨fun q hq z held hheld => ?_, fun q hq z held hheld => ?_⟩
  · rcases eq_or_of_content_assign hheld with ⟨-, hname, rfl⟩ | hheld
    · rwa [eq_of_forward hnames hq hp hname]
    · exact h.forward q hq z held hheld
  · rcases eq_or_of_content_assign hheld with ⟨-, hname, -⟩ | hheld
    · exact absurd hname.symm (forward_ne_inverse hnames hp hq)
    · exact h.inverse q hq z held hheld

theorem Shaped.assign_inverse (y : EntityId) (members : List Item) :
    (s.assign y p.inverse (.set members)).Shaped family := by
  refine ⟨fun q hq z held hheld => ?_, fun q hq z held hheld => ?_⟩
  · rcases eq_or_of_content_assign hheld with ⟨-, hname, -⟩ | hheld
    · exact absurd hname (forward_ne_inverse hnames hq hp)
    · exact h.forward q hq z held hheld
  · rcases eq_or_of_content_assign hheld with ⟨-, -, rfl⟩ | hheld
    · exact ⟨members, rfl⟩
    · exact h.inverse q hq z held hheld

end Shaped

/-! ### Changes in some places -/

/-- The entities are the same, keep their attributes, and hold the same but in some of them. -/
structure ChangesAt (place : EntityId → String → Prop) (s t : Store) : Prop where
  next : t.next = s.next
  key : ∀ z, t.key? z = s.key? z
  isSome : ∀ z name, (s.content? z name).isSome → (t.content? z name).isSome
  content : ∀ z name, ¬ place z name → t.content? z name = s.content? z name

namespace ChangesAt

variable {place later : EntityId → String → Prop}

theorem refl (s : Store) : ChangesAt place s s :=
  ⟨rfl, fun _ => rfl, fun _ _ h => h, fun _ _ _ => rfl⟩

theorem assign (x : EntityId) (name : String) (content : Content) :
    ChangesAt (fun z other => z = x ∧ other = name) s (s.assign x name content) := by
  refine ⟨next_assign .., fun z => key?_assign .., fun z other h => ?_,
    fun z other hne => content?_assign_ne hne _⟩
  rw [content?_assign]
  split
  · obtain ⟨held, hheld⟩ := Option.isSome_iff_exists.mp h
    obtain ⟨e, he, -⟩ := Option.bind_eq_some_iff.mp hheld
    simp [he]
  · exact h

theorem trans {u : Store} (hst : ChangesAt place s t) (htu : ChangesAt later t u) :
    ChangesAt (fun z name => place z name ∨ later z name) s u := by
  refine ⟨htu.next.trans hst.next, fun z => (htu.key z).trans (hst.key z),
    fun z name h => htu.isSome z name (hst.isSome z name h), fun z name hne => ?_⟩
  rw [htu.content z name fun h => hne (.inr h), hst.content z name fun h => hne (.inl h)]

theorem mono (h : ChangesAt place s t) (hlater : ∀ z name, place z name → later z name) :
    ChangesAt later s t :=
  ⟨h.next, h.key, h.isSome, fun z name hne => h.content z name fun hplace =>
    hne (hlater z name hplace)⟩

theorem distinct (h : ChangesAt place s t) (hs : s.Distinct) : t.Distinct := by
  intro a ha b hb hsame
  rw [h.next] at ha hb
  exact hs a ha b hb (by rwa [same, h.key, h.key] at hsame)

theorem admissible (h : ChangesAt place s t) {c : LinkCall} (hc : s.Admissible c) :
    t.Admissible c :=
  ⟨by rw [h.next]; exact hc.source, fun hsingle => h.isSome _ _ (hc.forward hsingle),
    fun y hy => h.isSome _ _ (hc.inverse y hy)⟩

end ChangesAt

/-! ### Members of sets -/

/-- An item of the store that equals an entity of it is this entity. -/
theorem Distinct.eq_of_sameItem (hs : s.Distinct) {x : EntityId} (hx : x < s.next) {m : Item}
    (hm : ∀ z, m = .entity z → z < s.next) (hsame : s.sameItem (.entity x) m = true) :
    m = .entity x := by
  cases m with
  | null => simp [sameItem] at hsame
  | native content => simp [sameItem] at hsame
  | entity z => rw [hs x hx z (hm z rfl) hsame]

/-- Where no member equals an item but itself, the item is the only one that is taken out. -/
theorem mem_eraseMember_iff {x : EntityId} {members : List Item}
    (hsame : ∀ m ∈ members, s.sameItem (.entity x) m = true → m = .entity x) {other : Item} :
    other ∈ s.eraseMember (.entity x) members ↔ other ∈ members ∧ other ≠ .entity x := by
  unfold eraseMember
  rw [List.mem_filter]
  refine and_congr_right fun hother => ?_
  rw [Bool.not_eq_true', ← Bool.not_eq_true]
  refine not_congr ⟨hsame other hother, ?_⟩
  rintro rfl
  simp [sameItem]

/-! ### One call -/

section Call

variable (hs : s.Paired family) {p : LinkSides} (hp : p ∈ family)

include hs hp

theorem Paired.exists_members {x y : EntityId} (hx : .entity x ∈ s.items y p.inverse) :
    ∃ members, s.content? y p.inverse = some (.set members) := by
  obtain ⟨content, hcontent, -⟩ := exists_content_of_mem_items hx
  obtain ⟨members, rfl⟩ := hs.shaped.inverse p hp y content hcontent
  exact ⟨members, hcontent⟩

/-- A property with one target refers to what its attribute holds. -/
theorem Paired.exists_single (hsingle : p.single = true) {x : EntityId} {content : Content}
    (hcontent : s.content? x p.forward = some content) :
    ∃ target : Option EntityId, content = .single (target.elim .null .entity) := by
  have hfits := hs.shaped.forward p hp x content hcontent
  rwa [LinkSides.Fits, if_pos hsingle] at hfits

variable (hnames : (attributesOf family).Nodup)

include hnames

/-- The source is taken out of the inverse collection of a target that refers to it. -/
theorem Paired.exists_erase {x y : EntityId} (hy : .entity y ∈ s.items x p.forward) :
    ∃ r, s.eraseFrom? y p.inverse (.entity x) = some r ∧ r.Shaped family ∧
      ChangesAt (fun z name => z = y ∧ name = p.inverse) s r ∧
      ∀ w z, .entity w ∈ r.items z p.inverse ↔
        .entity w ∈ s.items z p.inverse ∧ ¬ (w = x ∧ z = y) := by
  have hback := (hs.agree p hp x y).mp hy
  have hx := lt_next_of_mem_items hy
  have hynext := lt_next_of_mem_items hback
  obtain ⟨members, hmembers⟩ := hs.exists_members hp hback
  refine ⟨s.assign y p.inverse (.set (s.eraseMember (.entity x) members)),
    by simp [eraseFrom?, hmembers], hs.shaped.assign_inverse hnames hp y _, .assign .., ?_⟩
  intro w z
  by_cases hz : z = y
  · subst hz
    rw [items_assign_self hynext, items_of_content hmembers]
    refine (mem_eraseMember_iff fun m hm => hs.distinct.eq_of_sameItem hx ?_).trans
      (by simp [Content.items])
    rintro z rfl
    exact lt_next_of_mem_items ((hs.agree p hp _ _).mpr (by rwa [items_of_content hmembers]))
  · rw [items_assign_ne fun hat => hz hat.1]
    simp [hz]

/-- **The source is taken from the inverse collection of the only target it had**, and this is
the only place that it leaves. -/
theorem Paired.exists_erase_only {x q : EntityId} {target : Option EntityId}
    (hitems : s.items x p.forward = [.entity q]) (hsame : target ≠ some q) :
    ∃ r, s.eraseFrom? q p.inverse (.entity x) = some r ∧ r.Shaped family ∧
      ChangesAt (fun z name => .entity z ∈ s.items x p.forward ∧ name = p.inverse) s r ∧
      ∀ w y, .entity w ∈ r.items y p.inverse ↔
        .entity w ∈ s.items y p.inverse ∧ (w = x → target = some y) := by
  have hheld : .entity q ∈ s.items x p.forward := hitems ▸ List.mem_singleton_self _
  obtain ⟨r, herase, hshaped, hchanges, hmem⟩ := hs.exists_erase hp hnames hheld
  refine ⟨r, herase, hshaped, hchanges.mono ?_, fun w y => ?_⟩
  · rintro z name ⟨rfl, rfl⟩
    exact ⟨hheld, rfl⟩
  · rw [hmem]
    refine and_congr_right fun hw => ⟨?_, ?_⟩
    · rintro hleft rfl
      have hforward := (hs.agree p hp w y).mpr hw
      rw [hitems] at hforward
      obtain rfl : y = q := by simpa using hforward
      exact absurd ⟨rfl, rfl⟩ hleft
    · rintro hstays ⟨rfl, rfl⟩
      exact hsame (hstays rfl)

omit hnames in
/-- A source that has no target but the one it keeps is in no collection to leave. -/
theorem Paired.mem_iff_of_kept {x : EntityId} {target : Option EntityId}
    (hkeeps : ∀ y, .entity y ∈ s.items x p.forward → target = some y) (w y : EntityId) :
    .entity w ∈ s.items y p.inverse ↔
      .entity w ∈ s.items y p.inverse ∧ (w = x → target = some y) := by
  refine ⟨fun hw => ⟨hw, ?_⟩, And.left⟩
  rintro rfl
  exact hkeeps y ((hs.agree p hp w y).mpr hw)

/-- The source leaves the inverse collection of the target it had, unless it keeps this target. -/
theorem Paired.exists_release (hsingle : p.single = true) (x : EntityId)
    (target : Option EntityId) :
    ∃ r, s.release? p x (target.elim .null .entity) = some r ∧ r.Shaped family ∧
      ChangesAt (fun z name => .entity z ∈ s.items x p.forward ∧ name = p.inverse) s r ∧
      ∀ w y, .entity w ∈ r.items y p.inverse ↔
        .entity w ∈ s.items y p.inverse ∧ (w = x → target = some y) := by
  cases hcontent : s.content? x p.forward with
  | none =>
      exact ⟨s, by simp [release?, hcontent], hs.shaped, .refl s,
        hs.mem_iff_of_kept hp (by simp [items, hcontent])⟩
  | some content =>
      obtain ⟨previous, rfl⟩ := hs.exists_single hp hsingle hcontent
      have hitems := items_of_content hcontent
      cases previous with
      | none =>
          exact ⟨s, by simp [release?, hcontent], hs.shaped, .refl s,
            hs.mem_iff_of_kept hp (by simp [hitems, Content.items])⟩
      | some q =>
          by_cases hsame : target = some q
          · subst hsame
            exact ⟨s, by simp [release?, hcontent], hs.shaped, .refl s,
              hs.mem_iff_of_kept hp (by simp [hitems, Content.items])⟩
          · obtain ⟨r, herase, hchanged⟩ := hs.exists_erase_only hp hnames hitems hsame
            have hne : Item.entity q ≠ target.elim .null .entity := by
              cases target with
              | none => simp
              | some y => simpa [eq_comm] using hsame
            exact ⟨r, by simp [release?, hcontent, hne, herase], hchanged⟩

end Call

/-! ### Both halves of a call -/

/-- The places that a call may change: the attribute of the source, and the inverse collections of
the target that it gets and of the one that it leaves. -/
def Touches (s : Store) (c : LinkCall) (z : EntityId) (name : String) : Prop :=
  (z = c.source ∧ name = c.sides.forward) ∨
    (name = c.sides.inverse ∧ (c.target = some z ∨
      (c.sides.single = true ∧ .entity z ∈ s.items c.source c.sides.forward)))

/-- The store in the middle of a call: the source refers to its new target, and the one that it has
left does not keep it any more. -/
structure Pointed (family : List LinkSides) (c : LinkCall) (s t : Store) : Prop where
  shaped : t.Shaped family
  changes : ChangesAt (s.Touches c) s t
  forward : ∀ x y, .entity y ∈ t.items x c.sides.forward ↔
    if x = c.source then
      c.target = some y ∨ (c.sides.single = false ∧ .entity y ∈ s.items x c.sides.forward)
    else .entity y ∈ s.items x c.sides.forward
  inverse : ∀ w y, .entity w ∈ t.items y c.sides.inverse ↔
    .entity w ∈ s.items y c.sides.inverse ∧
      (c.sides.single = true → w = c.source → c.target = some y)

section Link

variable (hs : s.Paired family) (hnames : (attributesOf family).Nodup) {c : LinkCall}
  (hc : c.sides ∈ family) (hadm : s.Admissible c)

include hadm

theorem Admissible.target_lt {y : EntityId} (hy : c.target = some y) : y < s.next := by
  obtain ⟨held, hheld⟩ := Option.isSome_iff_exists.mp (hadm.inverse y hy)
  obtain ⟨e, he, -⟩ := Option.bind_eq_some_iff.mp hheld
  exact entity?_isSome_iff.mp ⟨e, he⟩

include hs hnames hc

/-- A source with one target leaves the one before. -/
theorem Paired.exists_pointed_single (hsingle : c.sides.single = true) :
    ∃ t, s.point? c.sides c.source c.item = some t ∧ Pointed family c s t := by
  have hapart := forward_ne_inverse hnames hc hc
  obtain ⟨r, hrelease, hshaped, hchanges, hmem⟩ :=
    hs.exists_release hc hnames hsingle c.source c.target
  have hfits : c.sides.Fits (.single c.item) := by
    rw [LinkSides.Fits, if_pos hsingle]
    exact ⟨c.target, rfl⟩
  refine ⟨r.assign c.source c.sides.forward (.single c.item),
    by simp [point?, hsingle, LinkCall.item, hrelease],
    hshaped.assign_forward hnames hc _ hfits, (hchanges.trans (.assign ..)).mono ?_, ?_, ?_⟩
  · rintro z name (⟨hz, rfl⟩ | h)
    · exact Or.inr ⟨rfl, Or.inr ⟨hsingle, hz⟩⟩
    · exact Or.inl h
  · intro x y
    by_cases hx : x = c.source
    · subst hx
      rw [if_pos rfl, items_assign_self (by rw [hchanges.next]; exact hadm.source), hsingle,
        Content.items, List.mem_singleton, eq_comm, LinkCall.item_eq_entity]
      simp
    · rw [if_neg hx, items_assign_ne fun hat => hx hat.1,
        items_congr (hchanges.content x _ fun h => hapart h.2)]
  · intro w y
    rw [items_assign_ne fun hat => hapart hat.2.symm, hmem]
    simp [hsingle]

/-- A source with several targets gains one. -/
theorem Paired.exists_pointed_several (hsingle : c.sides.single = false) :
    ∃ t, s.point? c.sides c.source c.item = some t ∧ Pointed family c s t := by
  have hapart := forward_ne_inverse hnames hc hc
  have hfits : ∀ members, c.sides.Fits (.set members) := by
    intro members
    rw [LinkSides.Fits, if_neg (by simp [hsingle])]
    exact ⟨members, rfl⟩
  cases htarget : c.target with
  | none =>
      refine ⟨s, by simp [point?, hsingle, LinkCall.item, htarget], hs.shaped, .refl s, ?_, ?_⟩
      · simp [hsingle, htarget]
      · simp [hsingle]
  | some y =>
      obtain ⟨content, hcontent⟩ := Option.isSome_iff_exists.mp (hadm.forward hsingle)
      have hshape := hs.shaped.forward _ hc _ content hcontent
      rw [LinkSides.Fits, if_neg (by simp [hsingle])] at hshape
      obtain ⟨members, rfl⟩ := hshape
      refine ⟨s.assign c.source c.sides.forward (.set (s.insertMember (.entity y) members)),
        by simp [point?, hsingle, LinkCall.item, htarget, insertInto?, hcontent],
        hs.shaped.assign_forward hnames hc _ (hfits _),
        (ChangesAt.assign ..).mono fun z name h => Or.inl h, ?_, ?_⟩
      · intro x z
        by_cases hx : x = c.source
        · subst hx
          rw [if_pos rfl, items_assign_self hadm.source, items_of_content hcontent, htarget,
            Content.items, mem_insertMember_iff fun m hm =>
              hs.distinct.eq_of_sameItem (hadm.target_lt htarget) ?_]
          · simp [hsingle, Content.items, or_comm, eq_comm]
          · rintro z rfl
            exact lt_next_of_mem_items
              ((hs.agree _ hc _ _).mp (by rwa [items_of_content hcontent]))
        · rw [if_neg hx, items_assign_ne fun hat => hx hat.1]
      · intro w z
        rw [items_assign_ne fun hat => hapart hat.2.symm]
        simp [hsingle]

/-- The target keeps the source in the end, and holds no more than that besides. -/
theorem Paired.exists_pointBack {t : Store} (hpointed : Pointed family c s t) :
    ∃ u, t.pointBack? c.sides c.source c.item = some u ∧ u.Shaped family ∧
      ChangesAt (s.Touches c) s u ∧
      (∀ x, u.items x c.sides.forward = t.items x c.sides.forward) ∧
      ∀ w y, .entity w ∈ u.items y c.sides.inverse ↔
        .entity w ∈ t.items y c.sides.inverse ∨ (w = c.source ∧ c.target = some y) := by
  have hapart := forward_ne_inverse hnames hc hc
  cases htarget : c.target with
  | none =>
      exact ⟨t, by simp [pointBack?, LinkCall.item, htarget], hpointed.shaped, hpointed.changes,
        fun _ => rfl, by simp⟩
  | some y =>
      obtain ⟨content, hcontent⟩ := Option.isSome_iff_exists.mp
        ((hpointed.changes.admissible hadm).inverse y htarget)
      obtain ⟨members, rfl⟩ := hpointed.shaped.inverse _ hc _ content hcontent
      have hy : y < t.next := by
        rw [hpointed.changes.next]
        exact hadm.target_lt htarget
      refine ⟨t.assign y c.sides.inverse (.set (t.insertMember (.entity c.source) members)),
        by simp [pointBack?, LinkCall.item, htarget, insertInto?, hcontent],
        hpointed.shaped.assign_inverse hnames hc _ _,
        (hpointed.changes.trans (.assign ..)).mono ?_, ?_, ?_⟩
      · rintro z name (h | ⟨rfl, rfl⟩)
        · exact h
        · exact Or.inr ⟨rfl, Or.inl htarget⟩
      · intro x
        exact items_assign_ne (fun hat => hapart hat.2) _
      · intro w z
        by_cases hz : z = y
        · subst hz
          rw [items_assign_self hy, items_of_content hcontent, Content.items,
            mem_insertMember_iff fun m hm => (hpointed.changes.distinct hs.distinct).eq_of_sameItem
              (by rw [hpointed.changes.next]; exact hadm.source) ?_]
          · simp [Content.items]
          · rintro w rfl
            rw [hpointed.changes.next]
            exact lt_next_of_mem_items ((hs.agree _ hc _ _).mpr
              ((hpointed.inverse w z).mp (by rwa [items_of_content hcontent])).1)
        · rw [items_assign_ne fun hat => hz hat.1]
          simp [Ne.symm hz]

/-- **A call succeeds, keeps both sides in step, and touches no other place.** -/
theorem Paired.exists_link :
    ∃ t, s.link c.sides c.source c.item = ⟨t, none⟩ ∧ t.Paired family ∧
      ChangesAt (s.Touches c) s t := by
  obtain ⟨m, hpoint, hpointed⟩ :
      ∃ t, s.point? c.sides c.source c.item = some t ∧ Pointed family c s t := by
    cases hsingle : c.sides.single with
    | true => exact hs.exists_pointed_single hnames hc hadm hsingle
    | false => exact hs.exists_pointed_several hnames hc hadm hsingle
  obtain ⟨t, hback, hshaped, hchanges, hforward, hinverse⟩ :=
    hs.exists_pointBack hnames hc hadm hpointed
  refine ⟨t, by simp [link, hpoint, hback], ⟨hchanges.distinct hs.distinct, hshaped, ?_⟩, hchanges⟩
  intro q hq x y
  by_cases hside : q = c.sides
  · subst hside
    have hagree := hs.agree _ hc x y
    rw [hforward, hpointed.forward, hinverse, hpointed.inverse, ← hagree]
    by_cases hx : x = c.source
    · cases hsingle : c.sides.single <;> simp [hx]
      tauto
    · simp [hx]
  · -- The attributes of another property are none of those that the call touches.
    have hq' : ∀ z, ¬ s.Touches c z q.forward ∧ ¬ s.Touches c z q.inverse := by
      refine fun z => ⟨?_, ?_⟩
      · rintro (⟨-, hname⟩ | ⟨hname, -⟩)
        · exact hside (eq_of_forward hnames hq hc hname)
        · exact forward_ne_inverse hnames hq hc hname
      · rintro (⟨-, hname⟩ | ⟨hname, -⟩)
        · exact forward_ne_inverse hnames hc hq hname.symm
        · exact hside (eq_of_inverse hnames hq hc hname)
    rw [items_congr (hchanges.content x _ (hq' x).1), items_congr (hchanges.content y _ (hq' y).2)]
    exact hs.agree q hq x y

end Link

/-! ### What attributes hold -/

/-- An entity is in an inverse collection if it is among what this holds. -/
theorem Shaped.holdsIn_inverse (h : s.Shaped family) {p : LinkSides} (hp : p ∈ family)
    {y : EntityId} {item : Item} : s.HoldsIn y p.inverse item ↔ item ∈ s.items y p.inverse := by
  constructor
  · rintro ⟨members, hmembers, hitem⟩
    rwa [items_of_content hmembers]
  · intro hitem
    obtain ⟨content, hcontent, hmem⟩ := exists_content_of_mem_items hitem
    obtain ⟨members, rfl⟩ := h.inverse p hp y content hcontent
    exact ⟨members, hcontent, hmem⟩

theorem Shaped.holdsIn_forward (h : s.Shaped family) {p : LinkSides} (hp : p ∈ family)
    (hsingle : p.single = false) {x : EntityId} {item : Item} :
    s.HoldsIn x p.forward item ↔ item ∈ s.items x p.forward := by
  constructor
  · rintro ⟨members, hmembers, hitem⟩
    rwa [items_of_content hmembers]
  · intro hitem
    obtain ⟨content, hcontent, hmem⟩ := exists_content_of_mem_items hitem
    have hfits := h.forward p hp x content hcontent
    rw [LinkSides.Fits, if_neg (by simp [hsingle])] at hfits
    obtain ⟨members, rfl⟩ := hfits
    exact ⟨members, hcontent, hmem⟩

/-- The only target of a source is what its attribute holds. -/
theorem Shaped.single_iff (h : s.Shaped family) {p : LinkSides} (hp : p ∈ family)
    (hsingle : p.single = true) {x y : EntityId} :
    s.content? x p.forward = some (.single (.entity y)) ↔ .entity y ∈ s.items x p.forward := by
  constructor
  · intro hcontent
    simp [items_of_content hcontent, Content.items]
  · intro hitem
    obtain ⟨content, hcontent, hmem⟩ := exists_content_of_mem_items hitem
    have hfits := h.forward p hp x content hcontent
    rw [LinkSides.Fits, if_pos hsingle] at hfits
    obtain ⟨target, rfl⟩ := hfits
    rw [hcontent, List.mem_singleton.mp hmem]

/-! ### All calls -/

section Calls

variable (hnames : (attributesOf family).Nodup)

include hnames

/-- **Calls keep both sides in step, whatever their number.** -/
theorem Paired.exists_linkAll : ∀ (calls : List LinkCall) (s : Store), s.Paired family →
    (∀ c ∈ calls, c.sides ∈ family ∧ s.Admissible c) →
    ∃ t, s.linkAll calls = ⟨t, none⟩ ∧ t.Paired family ∧ ∀ c, s.Admissible c → t.Admissible c := by
  intro calls
  induction calls with
  | nil => exact fun s hs _ => ⟨s, rfl, hs, fun _ h => h⟩
  | cons c rest ih =>
      intro s hs hcalls
      obtain ⟨hc, hadm⟩ := hcalls c List.mem_cons_self
      obtain ⟨m, hlink, hm, hchanges⟩ := hs.exists_link hnames hc hadm
      obtain ⟨t, hrest, ht, hkept⟩ := ih m hm fun d hd =>
        ⟨(hcalls d (List.mem_cons_of_mem _ hd)).1,
          hchanges.admissible (hcalls d (List.mem_cons_of_mem _ hd)).2⟩
      exact ⟨t, by simp [linkAll, hlink, hrest], ht, fun d hd => hkept d (hchanges.admissible hd)⟩

/--
**Linking keeps both sides of every property in step.**

No two entities of the store are equal, the attributes of the properties are all different,
and they are empty at first wherever an entity has them.  Any calls of `link` on these
properties then succeed, if their entities have the attributes that the calls need.  After
them a source with a single target refers to an entity if and only if it is in the inverse
collection there, so that it is in one such collection at most; and a source with several
targets has an entity among them if and only if this entity keeps the source.  One more call
on a property leaves all other attributes as they are, and all entities other than the source,
the target that it had and the one that it gets.
-/
theorem linkAll_keeps_sides_paired (hdistinct : s.Distinct) (hempty : s.Unlinked family)
    {calls : List LinkCall} (hcalls : ∀ c ∈ calls, c.sides ∈ family ∧ s.Admissible c) :
    ∃ t, s.linkAll calls = ⟨t, none⟩ ∧
      (∀ p ∈ family, p.single = true → ∀ x y,
        t.content? x p.forward = some (.single (.entity y)) ↔ t.HoldsIn y p.inverse (.entity x)) ∧
      (∀ p ∈ family, p.single = true → ∀ x y z, t.HoldsIn y p.inverse (.entity x) →
        t.HoldsIn z p.inverse (.entity x) → y = z) ∧
      (∀ p ∈ family, p.single = false → ∀ x y,
        t.HoldsIn x p.forward (.entity y) ↔ t.HoldsIn y p.inverse (.entity x)) ∧
      ∀ c, c.sides ∈ family → s.Admissible c →
        ∃ u, t.link c.sides c.source c.item = ⟨u, none⟩ ∧ u.next = t.next ∧
          (∀ z, u.key? z = t.key? z) ∧
          (∀ name, name ≠ c.sides.forward → name ≠ c.sides.inverse →
            ∀ z, u.content? z name = t.content? z name) ∧
          ∀ z, z ≠ c.source → c.target ≠ some z →
            (c.sides.single = true →
              t.content? c.source c.sides.forward ≠ some (.single (.entity z))) →
            ∀ name, u.content? z name = t.content? z name := by
  obtain ⟨t, hrun, ht, hkept⟩ := (hempty.paired hdistinct).exists_linkAll hnames calls s hcalls
  have hsingle : ∀ p ∈ family, p.single = true → ∀ x y,
      t.content? x p.forward = some (.single (.entity y)) ↔ t.HoldsIn y p.inverse (.entity x) := by
    intro p hp hsingle x y
    rw [ht.shaped.single_iff hp hsingle, ht.shaped.holdsIn_inverse hp, ht.agree p hp]
  refine ⟨t, hrun, hsingle, ?_, ?_, ?_⟩
  · intro p hp hone x y z hy hz
    have heq := ((hsingle p hp hone x y).mpr hy).symm.trans ((hsingle p hp hone x z).mpr hz)
    simpa using heq
  · intro p hp hseveral x y
    rw [ht.shaped.holdsIn_forward hp hseveral, ht.shaped.holdsIn_inverse hp, ht.agree p hp]
  · intro c hc hadm
    obtain ⟨u, hlink, -, hchanges⟩ := ht.exists_link hnames hc (hkept c hadm)
    refine ⟨u, hlink, hchanges.next, hchanges.key, ?_, ?_⟩
    · intro name hforward hinverse z
      exact hchanges.content z name fun h => h.elim (hforward ·.2) (hinverse ·.1)
    · intro z hsource htarget hprevious name
      refine hchanges.content z name ?_
      rintro (⟨rfl, -⟩ | ⟨-, htarget' | ⟨hone, hheld⟩⟩)
      · exact hsource rfl
      · exact htarget htarget'
      · exact hprevious hone ((ht.shaped.single_iff hc hone).mpr hheld)

end Calls

/-! ### Three persons -/

/-- A person has one advisor at most. -/
def advising : LinkSides := ⟨"advisor", "students", true⟩

/-- A person may have several friends. -/
def befriending : LinkSides := ⟨"friends", "friendOf", false⟩

/-- A person that nobody knows. -/
def loner (iri : String) : Entity where
  className := "Person"
  iri := ⟨iri⟩
  attributes := [("advisor", .single .null), ("students", .set []), ("friends", .set []),
    ("friendOf", .set [])]

/-- Three persons that do not know each other. -/
def strangers : Store := ⟨[loner "x:a", loner "x:b", loner "x:c"]⟩

/-- The first one changes advisors and has a friend twice; the second one advises himself for a
while. -/
def meetings : List LinkCall := [
  ⟨advising, 0, some 1⟩, ⟨befriending, 0, some 1⟩, ⟨advising, 1, some 1⟩, ⟨advising, 0, some 2⟩,
  ⟨befriending, 0, some 1⟩, ⟨befriending, 2, none⟩, ⟨advising, 1, none⟩]

theorem strangers_unlinked : strangers.Unlinked [advising, befriending] := by
  have hperson : ∀ {x : EntityId} {name : String} {content : Content},
      strangers.content? x name = some content → (loner "").content? name = some content := by
    intro x name content h
    obtain ⟨e, he, hcontent⟩ := Option.bind_eq_some_iff.mp h
    have hmem : e ∈ strangers.entities := List.mem_of_getElem? he
    simp only [strangers, List.mem_cons, List.not_mem_nil, or_false] at hmem
    rcases hmem with rfl | rfl | rfl <;> exact hcontent
  refine ⟨fun p hp x content h => ?_, fun p hp y content h => ?_⟩
  · have hcontent := hperson h
    simp only [List.mem_cons, List.not_mem_nil, or_false] at hp
    rcases hp with rfl | rfl <;> exact (Option.some.inj hcontent).symm
  · have hcontent := hperson h
    simp only [List.mem_cons, List.not_mem_nil, or_false] at hp
    rcases hp with rfl | rfl <;> exact (Option.some.inj hcontent).symm

theorem strangers_admissible : ∀ c ∈ meetings, strangers.Admissible c := by
  have hcalls : ∀ c ∈ meetings, c.source < strangers.next ∧
      (c.sides.single = false → (strangers.content? c.source c.sides.forward).isSome) ∧
      ∀ y ∈ c.target, (strangers.content? y c.sides.inverse).isSome := by
    decide +kernel
  exact fun c hc => ⟨(hcalls c hc).1, (hcalls c hc).2.1, (hcalls c hc).2.2⟩

/-- After their meetings the sides of the persons agree. -/
theorem strangers_meet_paired :
    ((attributesOf [advising, befriending]).Nodup ∧ strangers.Distinct ∧
      strangers.Unlinked [advising, befriending] ∧
      ∀ c ∈ meetings, c.sides ∈ [advising, befriending] ∧ strangers.Admissible c) ∧
    ∃ t, strangers.linkAll meetings = ⟨t, none⟩ ∧
      t.content? 0 "advisor" = some (.single (.entity 2)) ∧
      t.HoldsIn 2 "students" (.entity 0) ∧ ¬ t.HoldsIn 1 "students" (.entity 0) ∧
      (∀ x y, t.HoldsIn x "friends" (.entity y) ↔ t.HoldsIn y "friendOf" (.entity x)) ∧
      ∃ u, t.link advising 0 (.entity 0) = ⟨u, none⟩ ∧
        ∀ name, u.content? 1 name = t.content? 1 name := by
  have hdistinct : strangers.Distinct := by
    unfold Distinct
    decide +kernel
  have hnames : (attributesOf [advising, befriending]).Nodup := by decide +kernel
  have hsides : ∀ c ∈ meetings, c.sides ∈ [advising, befriending] := by decide +kernel
  have hcalls := fun c hc => And.intro (hsides c hc) (strangers_admissible c hc)
  have hself : strangers.Admissible ⟨advising, 0, some 0⟩ :=
    ⟨by decide, by decide, by rintro y ⟨⟩; decide +kernel⟩
  obtain ⟨t, hrun, hsingle, hone, hseveral, hcall⟩ :=
    linkAll_keeps_sides_paired hnames hdistinct strangers_unlinked hcalls
  have hadvisor : t.content? 0 "advisor" = some (.single (.entity 2)) := by
    obtain rfl : (strangers.linkAll meetings).store = t := congrArg StoreResult.store hrun
    decide +kernel
  have hstudent := (hsingle advising (by simp) rfl 0 2).mp hadvisor
  obtain ⟨u, hlink, -, -, -, hother⟩ := hcall ⟨advising, 0, some 0⟩ (by simp) hself
  refine ⟨⟨hnames, hdistinct, strangers_unlinked, hcalls⟩, t, hrun, hadvisor, hstudent, ?_,
    hseveral befriending (by simp) rfl, u, hlink, hother 1 (by decide) (by decide) fun _ => ?_⟩
  · intro hstill
    exact absurd (hone advising (by simp) rfl 0 1 2 hstill hstudent) (by decide)
  · rw [show t.content? 0 advising.forward = some (.single (.entity 2)) from hadvisor]
    decide

end Store

end OntoCode

/-
Reading an entity again.

An entity that reads itself empties each of its collections and puts into it what the
graph has.  Putting links: whoever is put into a collection keeps the entity in the
inverse collection.  Emptying does not unlink: whoever was in a collection before and
is not put into it again still keeps the entity, which does not refer to it any more.

So all that is read is linked, nothing is taken from an inverse collection, and the two
sides agree afterwards exactly if the entity refers again to everyone who kept it.
Entities that are met for the first time read themselves on the way, and from them
nothing can be left over.
-/
import OntoCode.Proofs.Agreement
import OntoCode.Proofs.LoadedOnce

namespace OntoCode

open OntoCode.Rdf

/-! ### Loading -/

/-- Work that ends well leads from stores with one property to stores with another one. -/
def Ensures {α : Type} (pre : Store → Prop) (work : Loading α) (post : Store → Prop) : Prop :=
  ∀ l a m, pre l.store → work.run.run l = (.ok a, m) → post m.store

namespace Ensures

variable {α β : Type} {pre mid post : Store → Prop}

theorem throw (failure : EntityFailure) : Ensures pre (throw failure : Loading α) post := by
  intro l a m _ hrun
  cases hrun

theorem bind {work : Loading α} {next : α → Loading β} (hwork : Ensures pre work mid)
    (hnext : ∀ a, Ensures mid (next a) post) : Ensures pre (work >>= next) post := by
  intro l b m hl hrun
  obtain ⟨a, between, hfirst, hrest⟩ := run_bind_eq_ok hrun
  exact hnext a between b m (hwork l a between hl hfirst) hrest

theorem settled {outcome : Except EntityFailure α} {next : α → Loading β}
    (hnext : ∀ a, Ensures pre (next a) post) : Ensures pre (settled outcome >>= next) post := by
  cases outcome with
  | error failure => exact throw failure
  | ok a => exact hnext a

theorem forM {work : α → Loading Unit} (as : List α) (h : ∀ a ∈ as, Ensures pre (work a) pre) :
    Ensures pre (as.forM work) pre := by
  induction as with
  | nil =>
      intro l _ m hl hrun
      cases hrun
      exact hl
  | cons a rest ih =>
      exact (h a List.mem_cons_self).bind fun _ => ih fun b hb => h b (List.mem_cons_of_mem _ hb)

theorem assignTo {id : EntityId} {name : String} {content : Content}
    (h : ∀ s, pre s → post (s.assign id name content)) :
    Ensures pre (assignTo id name content) post := by
  intro l _ m hl hrun
  cases hrun
  exact h l.store hl

theorem putInto {id : EntityId} {f : EntityField} {item : Item}
    (h : ∀ s, pre s → (s.put id f item).failure = none → post (s.put id f item).store) :
    Ensures pre (putInto id f item) post := by
  intro l _ m hl hrun
  unfold OntoCode.putInto at hrun
  rw [run_get_bind, run_modify_bind] at hrun
  cases hfailure : (l.store.put id f item).failure with
  | none =>
      rw [hfailure] at hrun
      cases hrun
      exact h l.store hl hfailure
  | some failure =>
      rw [hfailure] at hrun
      cases hrun

end Ensures

/-- A resolver lets only entities read themselves that it adds. -/
def Resolver.ReadsAdded (classes : EntityClasses) (inverse : String) (resolve : Resolver) : Prop :=
  ∀ expected iri l id m, (resolve expected iri).run.run l = (.ok id, m) →
    ∀ other, Store.Rereads classes inverse other [] l.store m.store

namespace EntitySource

open Store

variable {source : EntitySource} {inverse : String} {resolve : Resolver} {id : EntityId}
  {iri : Iri} {done : List EntityField} {s : Store} {c : String}

section Fields

variable (hnames : source.classes.InverseName inverse)
  (hresolve : resolve.ReadsAdded source.classes inverse) (hclass : s.class? id = some c)

include hnames hresolve hclass

/-- An entity that is asked for is put into a field. -/
theorem ensures_refer {f : EntityField} (hf : f ∈ source.classes.fields c) (hdone : f ∈ done)
    (asked : Iri) :
    Ensures (s.Rereads source.classes inverse id done)
      (do putInto id f (.entity (← resolve f.range asked)))
      (s.Rereads source.classes inverse id done) := by
  refine .bind (fun l y m hl hrun => hl.trans (hresolve _ _ _ _ _ hrun id)) fun y => ?_
  refine .putInto fun t ht hput => ?_
  by_cases hinverse : f.inverse = some inverse
  · exact ht.put hnames hclass hf hinverse hdone hput
  · exact ht.put_other hnames hclass hf hinverse _

/-- **Reading a field reads it.** -/
theorem ensures_loadField {f : EntityField} (hf : f ∈ source.classes.fields c) (hfresh : f ∉ done) :
    Ensures (s.Rereads source.classes inverse id done) (source.loadField resolve id iri f)
      (s.Rereads source.classes inverse id (done ++ [f])) := by
  have hassign : ∀ {content : Content}, (∀ y, .entity y ∉ content.items) →
      Ensures (s.Rereads source.classes inverse id done) (assignTo id f.name content)
        (s.Rereads source.classes inverse id (done ++ [f])) :=
    fun hcontent => .assignTo fun t ht => ht.assign hnames hclass hf hcontent hfresh
  have hskip : f.kind ≠ .collection → ∀ t, s.Rereads source.classes inverse id done t →
      s.Rereads source.classes inverse id (done ++ [f]) t :=
    fun hkind t ht => ht.skip fun hinverse => hkind (hnames.collection c f hf hinverse)
  unfold loadField
  cases hkind : f.kind with
  | value =>
      refine .settled fun values => hassign fun y hy => ?_
      cases values <;> simp [Content.items] at hy
  | array => exact .settled fun values => hassign fun y hy => by simp [Content.items] at hy
  | object =>
      cases source.graph.sortedIris iri f.predicate with
      | nil =>
          refine .putInto fun t ht _ => ?_
          have hinverse : f.inverse ≠ some inverse := fun hinverse => by
            simp [hnames.collection c f hf hinverse] at hkind
          exact (ht.put_other hnames hclass hf hinverse _).skip hinverse
      | cons first rest =>
          intro l a m hl hrun
          exact ensures_refer hnames hresolve hclass hf (by simp) first l a m
            (hskip (by simp [hkind]) _ hl) hrun
  | collection =>
      refine (hassign fun y hy => by simp [Content.items] at hy).bind fun _ => ?_
      exact .forM _ fun asked _ => ensures_refer hnames hresolve hclass hf (by simp) asked

/-- Reading fields one after the other reads all of them. -/
theorem ensures_loadFieldsOf (fs : List EntityField) (hfs : ∀ f ∈ fs, f ∈ source.classes.fields c)
    (hdistinct : (done ++ fs).Nodup) :
    Ensures (s.Rereads source.classes inverse id done) (fs.forM (source.loadField resolve id iri))
      (s.Rereads source.classes inverse id (done ++ fs)) := by
  induction fs generalizing done with
  | nil =>
      intro l _ m hl hrun
      cases hrun
      rwa [List.append_nil]
  | cons f rest ih =>
      have hfresh : f ∉ done := fun hmem =>
        (List.nodup_append.mp hdistinct).2.2 f hmem f List.mem_cons_self rfl
      rw [List.append_cons] at hdistinct ⊢
      refine (ensures_loadField hnames hresolve hclass (hfs f List.mem_cons_self) hfresh).bind
        fun _ => ?_
      exact ih (fun g hg => hfs g (List.mem_cons_of_mem _ hg)) hdistinct

/-- Reading the fields of classes one after the other reads all of them. -/
theorem ensures_loadClasses (cs : List EntityClass)
    (hcs : ∀ f ∈ cs.flatMap (·.fields), f ∈ source.classes.fields c)
    (hdistinct : (done ++ cs.flatMap (·.fields)).Nodup) :
    Ensures (s.Rereads source.classes inverse id done) (cs.forM (source.loadClass resolve id iri))
      (s.Rereads source.classes inverse id (done ++ cs.flatMap (·.fields))) := by
  induction cs generalizing done with
  | nil =>
      intro l _ m hl hrun
      cases hrun
      simpa using hl
  | cons d rest ih =>
      rw [List.flatMap_cons, ← List.append_assoc] at hdistinct ⊢
      have hown : ∀ f ∈ d.fields, f ∈ source.classes.fields c := fun f hf =>
        hcs f (List.mem_flatMap.mpr ⟨d, List.mem_cons_self, hf⟩)
      refine Ensures.bind ?_ fun _ => ih (fun f hf => hcs f ?_) hdistinct
      · unfold loadClass
        split
        · exact .throw _
        · exact ensures_loadFieldsOf hnames hresolve hclass d.fields hown
            (List.nodup_append.mp hdistinct).1
      · rw [List.flatMap_cons]
        exact List.mem_append_right _ hf

end Fields

/-- **An entity that reads itself has read all its fields in the end.** -/
theorem rereads_of_loadFields (hnames : source.classes.InverseName inverse)
    (hresolve : resolve.ReadsAdded source.classes inverse) {l m : Loaded}
    (hclass : l.store.class? id = some c)
    (hrun : (source.loadFields resolve id).run.run l = (.ok (), m)) :
    l.store.Rereads source.classes inverse id (source.classes.fields c) m.store := by
  obtain ⟨e, he, rfl⟩ := Option.map_eq_some_iff.mp hclass
  have hdistinct : ([] ++ source.classes.fields e.className).Nodup :=
    (hnames.nodup e.className).of_map
  unfold loadFields at hrun
  rw [run_get_bind, he] at hrun
  exact ensures_loadClasses hnames hresolve hclass _ (fun f hf => hf) hdistinct l () m
    (.refl l.store) hrun

/-- **Requests let only new entities read themselves.** -/
theorem readsAdded_resolveWithin (hnames : source.classes.InverseName inverse)
    (factory : EntityFactory) (depth : Nat) :
    (source.resolveWithin factory depth).ReadsAdded source.classes inverse := by
  induction depth with
  | zero =>
      intro expected iri l id m hrun
      cases hrun
  | succ depth ih =>
      intro expected iri l id m hrun other
      unfold resolveWithin at hrun
      rw [run_get_bind] at hrun
      cases hmet : l.resolved.lookup iri with
      | some met =>
          rw [hmet] at hrun
          cases hrun
          exact .refl l.store
      | none =>
          rw [hmet] at hrun
          cases hchoose : factory.choose source.classes source.graph expected iri with
          | error failure =>
              rw [hchoose] at hrun
              cases hrun
          | ok className =>
              have hsettled : settled (.ok className) = (pure className : Loading String) := rfl
              simp only [hchoose, hsettled, pure_bind] at hrun
              rw [run_get_bind, run_modify_bind] at hrun
              obtain ⟨⟨⟩, between, hfields, hrest⟩ := run_bind_eq_ok hrun
              cases hrest
              have hclass : (l.meet source.classes className iri).store.class? l.store.next =
                  some className := by
                rw [Store.class?_eq, Loaded.key?_meet_self]
                rfl
              exact .of_add other (rereads_of_loadFields hnames ih hclass hfields)

theorem readsAdded_resolve (hnames : source.classes.InverseName inverse) :
    source.resolve.ReadsAdded source.classes inverse := by
  intro expected iri
  unfold resolve
  cases source.factory with
  | none =>
      intro l id m hrun
      cases hrun
  | some factory => exact readsAdded_resolveWithin hnames factory _ expected iri

/-! ### Reading an entity again -/

theorem exists_rereads_of_reload (hnames : source.classes.InverseName inverse)
    {before after : Loaded} (hrun : (source.reload id).run.run before = (.ok (), after)) :
    ∃ done, before.store.Rereads source.classes inverse id done after.store := by
  cases hclass : before.store.class? id with
  | none =>
      have hentity : before.store.entity? id = none := Option.map_eq_none_iff.mp hclass
      unfold reload loadFields at hrun
      rw [run_get_bind, hentity] at hrun
      cases hrun
      exact ⟨[], .refl _⟩
  | some c => exact ⟨_, rereads_of_loadFields hnames (readsAdded_resolve hnames) hclass hrun⟩

/--
**Reading an entity again keeps its sides in step as far as it refers again to everyone.**

Take any state in which both sides of the collections with an inverse agree, any graph, and
any entity that reads itself again and comes to an end.  Afterwards

  * whoever refers to an entity by such a collection is in its inverse collection,
  * inverse collections have lost nothing,
  * whoever is in an inverse collection refers to its owner, but for the entity that was
    read: it is also in those that it was in before,
  * so both sides agree again exactly if the entity that was read still refers to everyone
    in whose inverse collection it was.
-/
theorem reload_agrees_iff (hnames : source.classes.InverseName inverse) {before after : Loaded}
    (hbefore : before.store.Agrees source.classes inverse)
    (hrun : (source.reload id).run.run before = (.ok (), after)) :
    (∀ x f, after.store.SourceBy source.classes inverse x f →
      ∀ y, .entity y ∈ after.store.items x f.name → after.store.Has y inverse x) ∧
    (∀ y item, item ∈ before.store.items y inverse → item ∈ after.store.items y inverse) ∧
    (∀ y x, .entity x ∈ after.store.items y inverse →
      (∃ f, after.store.SourceBy source.classes inverse x f ∧ after.store.Has x f.name y) ∨
        x = id ∧ .entity id ∈ before.store.items y inverse) ∧
    (after.store.Agrees source.classes inverse ↔
      ∀ y, .entity id ∈ before.store.items y inverse →
        ∃ f, after.store.SourceBy source.classes inverse id f ∧ after.store.Has id f.name y) := by
  obtain ⟨done, hreads⟩ := exists_rereads_of_reload hnames hrun
  have hback : ∀ x f, after.store.SourceBy source.classes inverse x f →
      ∀ y, .entity y ∈ after.store.items x f.name → after.store.Has y inverse x := by
    intro x f hf y hy
    by_cases hread : before.store.ReadSince id done x f
    · exact hreads.back x f hf hread y hy
    · have hx : x < before.store.next := Nat.lt_of_not_le fun hle => hread (.inl hle)
      have hold := hf.of_lt hreads.key hx
      rw [hreads.unread x f hold fun hat => hread (.inr hat)] at hy
      exact (hbefore.back x f hold y hy).mono hreads.key hx (hreads.grows y)
  have hforth : ∀ y x, .entity x ∈ after.store.items y inverse →
      (∃ f, after.store.SourceBy source.classes inverse x f ∧ after.store.Has x f.name y) ∨
        x = id ∧ .entity id ∈ before.store.items y inverse := by
    intro y x hx
    rcases hreads.listed y x hx with hold | ⟨f, hf, -, hhas⟩
    · by_cases hid : x = id
      · rw [hid] at hold
        exact .inr ⟨hid, hold⟩
      · -- Another entity refers to whom it referred to.
        obtain ⟨f, hf, hhas⟩ := hbefore.forth y x hold
        refine .inl ⟨f, hf.mono hreads.key, hhas.mono hreads.key (lt_next_of_mem_items hold) ?_⟩
        rw [hreads.unread x f hf fun hat => hid hat.1]
        exact fun _ hitem => hitem
    · exact .inl ⟨f, hf, hhas⟩
  refine ⟨hback, hreads.grows, hforth, fun hafter y hy => ?_, fun hstill => ⟨hback, ?_⟩⟩
  · exact hafter.forth y id (hreads.grows y _ hy)
  · intro y x hx
    rcases hforth y x hx with hrefers | ⟨rfl, hold⟩
    · exact hrefers
    · exact hstill y hold

/-! ### Acquaintances -/

/-- Bob, who knows Carol. -/
def bobAndCarol : Store :=
  ((⟨[.ofClass acquaintances "Person" ⟨"x:bob"⟩, .ofClass acquaintances "Person" ⟨"x:carol"⟩]⟩ :
    Store).put 0 knows (.entity 1)).store

/-- A graph in which Bob knows somebody. -/
def bobKnows (known : Iri) : EntitySource where
  classes := acquaintances
  graph := .ofList [⟨.iri ⟨"x:bob"⟩, ⟨"x:knows"⟩, .iri known⟩]
  factory := some personFactory

theorem knownBy_inverseName : acquaintances.InverseName "knownBy" where
  nodup := by
    intro c
    rw [fields_acquaintances]
    split <;> simp
  field := by
    intro c f hf
    rw [eq_knows hf]
    decide
  collection := by
    intro c f hf _
    rw [eq_knows hf]
    rfl
  source := by
    intro c f hf _ d g hg
    rw [eq_knows hf, eq_knows hg]
    decide

/-- At first Bob is in the inverse collection of Carol alone. -/
theorem bobAndCarol_agrees : bobAndCarol.Agrees acquaintances "knownBy" := by
  have hdistinct : bobAndCarol.Distinct := by
    unfold Distinct
    decide +kernel
  have hperson : bobAndCarol.class? 0 = some "Person" := by decide +kernel
  have hknows : ∀ x < 2, ∀ item ∈ bobAndCarol.items x "knows", x = 0 ∧ item = .entity 1 := by
    decide +kernel
  have hknown : ∀ y < 2, ∀ item ∈ bobAndCarol.items y "knownBy", y = 1 ∧ item = .entity 0 := by
    decide +kernel
  refine hdistinct.agrees_iff.mpr fun x y => ⟨?_, fun hx => ?_⟩
  · rintro ⟨f, ⟨c, -, hf, -⟩, hy⟩
    rw [eq_knows hf] at hy
    obtain ⟨rfl, hcarol⟩ := hknows x (lt_next_of_mem_items hy) _ hy
    rw [Item.entity.inj hcarol]
    decide +kernel
  · obtain ⟨rfl, hbob⟩ := hknown y (lt_next_of_mem_items hx) _ hx
    rw [Item.entity.inj hbob]
    exact ⟨knows, ⟨"Person", hperson, by simp [fields_acquaintances], rfl⟩, by decide +kernel⟩

/-- Bob after he has read whom he knows. -/
def bobRead (known : Iri) : Loaded :=
  (((bobKnows known).reload 0).run.run { store := bobAndCarol }).2

/-- Bob still knows Carol, or an entity that equals her, and both sides agree. -/
theorem bob_still_knows_carol :
    (acquaintances.InverseName "knownBy" ∧ bobAndCarol.Agrees acquaintances "knownBy" ∧
      ((bobKnows ⟨"x:carol"⟩).reload 0).run.run { store := bobAndCarol } =
        (.ok (), bobRead ⟨"x:carol"⟩)) ∧
    (bobRead ⟨"x:carol"⟩).store.Agrees acquaintances "knownBy" := by
  have hrun : ((bobKnows ⟨"x:carol"⟩).reload 0).run.run { store := bobAndCarol } =
      (.ok (), bobRead ⟨"x:carol"⟩) := Prod.ext (by decide +kernel) rfl
  refine ⟨⟨knownBy_inverseName, bobAndCarol_agrees, hrun⟩, ?_⟩
  obtain ⟨-, -, -, hagrees⟩ := reload_agrees_iff knownBy_inverseName bobAndCarol_agrees hrun
  refine hagrees.mpr fun y hy => ?_
  have hkeeps : ∀ y < 2, .entity 0 ∈ bobAndCarol.items y "knownBy" → y = 1 := by decide +kernel
  obtain rfl := hkeeps y (lt_next_of_mem_items hy) hy
  have hbob : (bobRead ⟨"x:carol"⟩).store.class? 0 = some "Person" := by decide +kernel
  -- The Carol that Bob has read is a new entity, which equals the one that keeps him.
  have hcarol : .entity 2 ∈ (bobRead ⟨"x:carol"⟩).store.items 0 "knows" := by decide +kernel
  have hsame : (bobRead ⟨"x:carol"⟩).store.sameItem (.entity 1) (.entity 2) = true := by
    decide +kernel
  exact ⟨knows, ⟨"Person", hbob, by simp [bobKnows, fields_acquaintances], rfl⟩,
    .entity 2, hcarol, hsame⟩

/-- Bob knows Dave instead, and Carol still keeps him. -/
theorem carol_keeps_bob :
    bobAndCarol.Agrees acquaintances "knownBy" ∧
      ((bobKnows ⟨"x:dave"⟩).reload 0).run.run { store := bobAndCarol } =
        (.ok (), bobRead ⟨"x:dave"⟩) ∧
      (bobRead ⟨"x:dave"⟩).store.items 0 "knows" = [.entity 2] ∧
      (bobRead ⟨"x:dave"⟩).store.items 1 "knownBy" = [.entity 0] ∧
      ¬ (bobRead ⟨"x:dave"⟩).store.Agrees acquaintances "knownBy" := by
  have hitems : (bobRead ⟨"x:dave"⟩).store.items 0 "knows" = [.entity 2] := by decide +kernel
  have hkept : (bobRead ⟨"x:dave"⟩).store.items 1 "knownBy" = [.entity 0] := by decide +kernel
  have hother : (bobRead ⟨"x:dave"⟩).store.sameItem (.entity 1) (.entity 2) = false := by
    decide +kernel
  refine ⟨bobAndCarol_agrees, Prod.ext (by decide +kernel) rfl, hitems, hkept, fun hagrees => ?_⟩
  obtain ⟨f, ⟨c, -, hf, -⟩, item, hitem, hsame⟩ :=
    hagrees.forth 1 0 (by rw [hkept]; exact List.mem_singleton_self _)
  rw [eq_knows hf] at hitem
  have hdave : item ∈ (bobRead ⟨"x:dave"⟩).store.items 0 "knows" := hitem
  rw [hitems, List.mem_singleton] at hdave
  rw [hdave, hother] at hsame
  cases hsame

end EntitySource

end OntoCode

/-
What a generator remembers does not show in what it describes.

The inverse collections of a class are looked up once and then remembered.  As long
as everything remembered is what looking it up would give, describing a class with
the help of what is remembered gives the description itself, and leaves only such
answers behind.  `Yields` says that of a piece of work: its outcome is the same from
every faithful workspace, and the workspace stays faithful.

Files, log and reported ambiguities have no part in it.
-/
import OntoCode.Generate.Generator
import OntoCode.Proofs.Steps

namespace OntoCode

open OntoCode.Rdf OntoCode.Ontology

/-- Every remembered answer is the one that looking it up gives. -/
def Workspace.Faithful (w : Workspace) (target : Target) (o : Ontology) : Prop :=
  ∀ class_ found, w.collections.lookup class_ = some found →
    inverseCollections target o class_ = .ok found

theorem Workspace.faithful_of_empty {w : Workspace} (h : w.collections = []) (target : Target)
    (o : Ontology) : w.Faithful target o := by
  intro class_ found hfound
  simp [h] at hfound

/-- From every faithful workspace the work has this outcome, and it leaves a faithful one. -/
def Yields (target : Target) (o : Ontology) {α : Type} (work : Work α)
    (outcome : Except Failure α) : Prop :=
  ∀ w : Workspace, w.Faithful target o →
    (work.run.run w).1 = outcome ∧ Workspace.Faithful (work.run.run w).2 target o

namespace Yields

variable {target : Target} {o : Ontology} {α β : Type}

theorem pure (a : α) : Yields target o (Pure.pure a) (.ok a) :=
  fun _ hw => ⟨rfl, hw⟩

theorem settle (outcome : Except Failure α) : Yields target o (settle outcome) outcome :=
  fun _ hw => ⟨rfl, hw⟩

theorem bind {work : Work α} {next : α → Work β} {outcome : Except Failure α}
    {after : α → Except Failure β} (hwork : Yields target o work outcome)
    (hnext : ∀ a, outcome = .ok a → Yields target o (next a) (after a)) :
    Yields target o (work >>= next) (outcome >>= after) := by
  intro w hw
  obtain ⟨houtcome, hleft⟩ := hwork w hw
  rw [run_bind]
  cases hres : work.run.run w with
  | mk result v =>
      rw [hres] at houtcome hleft
      subst houtcome
      cases result with
      | error e => exact ⟨rfl, hleft⟩
      | ok a => exact hnext a rfl v hleft

/-- Work that leaves what is remembered alone. -/
theorem update {change : Workspace → Workspace}
    (h : ∀ w, (change w).collections = w.collections) :
    Yields target o (modify change) (.ok ()) := by
  intro w hw
  refine ⟨rfl, ?_⟩
  intro class_ found hfound
  exact hw class_ found (by rw [← h w]; exact hfound)

theorem reportAll (notices : List Notice) : Yields target o (reportAll notices) (.ok ()) := by
  refine update fun w => ?_
  induction notices generalizing w with
  | nil => rfl
  | cons notice rest ih =>
      rw [List.foldl_cons, ih]
      unfold Workspace.report
      split
      · split <;> rfl
      · rfl

theorem mapM {work : α → Work β} {outcome : α → Except Failure β}
    (h : ∀ a, Yields target o (work a) (outcome a)) (l : List α) :
    Yields target o (l.mapM work) (l.mapM outcome) := by
  induction l with
  | nil => exact pure []
  | cons a rest ih =>
      rw [List.mapM_cons, List.mapM_cons]
      exact (h a).bind fun b _ => ih.bind fun bs _ => pure (b :: bs)

end Yields

namespace Ontology

variable (target : Target) (o : Ontology)

/-- Remembering an answer that is right leaves a faithful workspace. -/
theorem remember_yields {class_ : Iri} {found : List InverseCollection}
    (h : inverseCollections target o class_ = .ok found) :
    Yields target o
      (modify fun w => { w with collections := w.collections ++ [(class_, found)] }) (.ok ()) := by
  intro w hw
  refine ⟨rfl, ?_⟩
  intro asked answer hlookup
  have happend : (w.collections ++ [(class_, found)]).lookup asked = some answer := hlookup
  rw [List.lookup_append] at happend
  cases hold : w.collections.lookup asked with
  | some old =>
      simp only [hold, Option.some_or, Option.some.injEq] at happend
      exact happend ▸ hw asked old hold
  | none =>
      simp only [hold, Option.none_or, List.lookup_cons, List.lookup_nil] at happend
      split at happend
      · rename_i heq
        rw [Option.some.injEq] at happend
        rw [eq_of_beq heq, ← happend]
        exact h
      · simp at happend

/-- **Remembered collections are those that looking them up gives.** -/
theorem recalledCollections_yields (class_ : Iri) :
    Yields target o (recalledCollections target o class_) (inverseCollections target o class_) := by
  intro w hw
  unfold recalledCollections
  rw [run_get_bind]
  cases hfound : w.collections.lookup class_ with
  | some found => exact ⟨(hw class_ found hfound).symm, hw⟩
  | none =>
      have hunseen := (Yields.reportAll (propertiesNotices o.graph .range)).bind fun _ _ =>
        (Yields.settle (propertiesOf o.graph class_ .range)).bind fun properties _ =>
          (Yields.reportAll (inverseNotices o.graph properties)).bind fun _ _ =>
            (Yields.settle (inverseCollections target o class_)).bind fun found hright =>
              (remember_yields target o hright).bind fun _ _ => Yields.pure found
      have houtcome : (Except.ok () >>= fun _ => propertiesOf o.graph class_ .range >>= fun _ =>
          Except.ok () >>= fun _ => inverseCollections target o class_ >>= fun found =>
            Except.ok () >>= fun _ => Except.ok found) = inverseCollections target o class_ := by
        cases hproperties : propertiesOf o.graph class_ .range with
        | error e => simp [inverseCollections, hproperties, bind, Except.bind]
        | ok properties => cases inverseCollections target o class_ <;> rfl
      rw [houtcome] at hunseen
      exact hunseen w hw

theorem recalledField_yields (property : Iri) :
    Yields target o (recalledField target o property)
      (fieldWith (inverseCollections target o) (propertyOf target o property)) := by
  unfold recalledField fieldWith
  split
  · exact (recalledCollections_yields target o _).bind fun _ _ => Yields.pure _
  · exact Yields.pure _

/-- **The description of a class does not depend on what is remembered.** -/
theorem recalledClass_yields (class_ : Iri) :
    Yields target o (recalledClass target o class_) (describe target o class_) := by
  have hwork := (Yields.reportAll (superclassNotices o.graph (.iri class_))).bind fun _ _ =>
    (Yields.reportAll (propertiesNotices o.graph .domain)).bind fun _ _ =>
      (@Yields.settle target o _ (propertiesOf o.graph class_ .domain)).bind
        fun properties _ =>
          (Yields.mapM (recalledField_yields target o) properties).bind fun fields _ =>
            (recalledCollections_yields target o class_).bind fun inverses _ =>
              Yields.settle (assemble o class_ fields inverses).checked
  exact hwork

end Ontology

namespace Generator

/-- The descriptions of the classes to generate, for someone who remembers nothing. -/
def described (g : Generator) : Except Failure (List ClassDescription) := do
  let found ← g.classesToGenerate.mapM (describe g.target g.ontology)
  checkClassNames [] found
  return (Hierarchy.order found).1

/-- **The classes to generate are described alike whatever is remembered.** -/
theorem describeClasses_yields (g : Generator) :
    Yields g.target g.ontology g.describeClasses g.described := by
  have hfind : Yields g.target g.ontology g.findClasses (.ok g.classesToGenerate) :=
    (Yields.reportAll g.classNotices).bind fun _ _ => Yields.pure _
  have hwork := hfind.bind fun iris _ =>
    (Yields.mapM (recalledClass_yields g.target g.ontology) iris).bind fun found _ =>
      (Yields.reportAll [.foundClasses (found.map (·.name))]).bind fun _ _ =>
        (Yields.settle (checkClassNames [] found)).bind fun _ _ =>
          (Yields.reportAll (Hierarchy.order found).2).bind fun _ _ =>
            Yields.pure (Hierarchy.order found).1
  exact hwork

end Generator

end OntoCode

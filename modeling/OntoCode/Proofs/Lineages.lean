/-
Which classes are below which ones.

Entities of a class are entities of all classes that are reached from it by going from a
class to those it is declared below.  `isBelow` looks for a class among those that are
collected by walking back through the declarations, and finds it exactly if it is
reached.

A class is declared below earlier ones only.  So two classes that are below each other
are the same one, unless a class bears the name of the one that all entities belong to.
-/
import Mathlib.Logic.Relation
import OntoCode.Proofs.Attributes

namespace OntoCode.EntityClasses

/-- A class is declared below another one that was declared before; the latest one comes first. -/
inductive Extends : List EntityClass → String → String → Prop
  | latest {c : EntityClass} {earlier : List EntityClass} {base : String} (hbase : base ∈ c.bases)
      (hdeclared : base ∈ earlier.map (·.name)) : Extends (c :: earlier) c.name base
  | earlier {c : EntityClass} {earlier : List EntityClass} {name base : String}
      (h : Extends earlier name base) : Extends (c :: earlier) name base

/-- A class is reached from another one by going from classes to those they are declared below. -/
abbrev Reaches (declared : List EntityClass) : String → String → Prop :=
  Relation.ReflTransGen (Extends declared)

/-- Entities of the first class are entities of the second one. -/
def Below (classes : EntityClasses) (name above : String) : Prop :=
  above = anyEntity ∨ Reaches classes.declared name above

variable {declared earlier : List EntityClass} {c : EntityClass} {name base above : String}

/-! ### Links between declared classes -/

theorem Extends.declared_right (h : Extends declared name base) :
    base ∈ declared.map (·.name) := by
  induction h with
  | latest _ hdeclared => exact List.mem_cons_of_mem _ hdeclared
  | earlier _ ih => exact List.mem_cons_of_mem _ ih

theorem Extends.declared_left (h : Extends declared name base) :
    name ∈ declared.map (·.name) := by
  induction h with
  | latest => exact List.mem_cons_self
  | earlier _ ih => exact List.mem_cons_of_mem _ ih

/-- No class is declared below the latest one. -/
theorem Extends.right_of_cons (h : Extends (c :: earlier) name base) :
    base ∈ earlier.map (·.name) := by
  cases h with
  | latest _ hdeclared => exact hdeclared
  | earlier h => exact h.declared_right

/-- A class that was declared before the latest one is declared below the same ones as before. -/
theorem extends_cons_iff (hname : name ≠ c.name) :
    Extends (c :: earlier) name base ↔ Extends earlier name base := by
  refine ⟨fun h => ?_, .earlier⟩
  cases h with
  | latest => exact absurd rfl hname
  | earlier h => exact h

/-- The latest class is declared below its bases. -/
theorem extends_latest_iff (hfresh : c.name ∉ earlier.map (·.name)) :
    Extends (c :: earlier) c.name base ↔ base ∈ c.bases ∧ base ∈ earlier.map (·.name) := by
  refine ⟨fun h => ?_, fun ⟨hbase, hdeclared⟩ => .latest hbase hdeclared⟩
  cases h with
  | latest hbase hdeclared => exact ⟨hbase, hdeclared⟩
  | earlier h => exact absurd h.declared_left hfresh

/-- What is reached from an earlier class does not depend on the latest one. -/
theorem reaches_cons_iff (hfresh : c.name ∉ earlier.map (·.name))
    (hname : name ∈ earlier.map (·.name)) :
    Reaches (c :: earlier) name above ↔ Reaches earlier name above := by
  refine ⟨fun h => ?_, fun h => Relation.ReflTransGen.mono (fun _ _ => Extends.earlier) _ _ h⟩
  induction h using Relation.ReflTransGen.head_induction_on with
  | refl => exact .refl
  | head hlink _ ih =>
      have hne := ne_of_mem_of_not_mem hname hfresh
      exact .head ((extends_cons_iff hne).mp hlink) (ih hlink.right_of_cons)

/-- Nothing but itself is reached from a class that is not declared. -/
theorem eq_of_reaches (h : Reaches declared name above)
    (hname : name ∉ declared.map (·.name)) : name = above := by
  cases h.cases_head with
  | inl heq => exact heq
  | inr hstep =>
      obtain ⟨base, hlink, -⟩ := hstep
      exact absurd hlink.declared_left hname

/-- A class that is reached from a declared one is declared. -/
theorem declared_of_reaches (h : Reaches declared name above)
    (hname : name ∈ declared.map (·.name)) : above ∈ declared.map (·.name) := by
  cases h.cases_tail with
  | inl heq => exact heq ▸ hname
  | inr hstep =>
      obtain ⟨_, -, hlink⟩ := hstep
      exact hlink.declared_right

/-- **Classes that are reached from each other are the same one.** -/
theorem reaches_antisymm (hdistinct : (declared.map (·.name)).Nodup)
    (hup : Reaches declared name above) (hdown : Reaches declared above name) : name = above := by
  induction declared with
  | nil => exact eq_of_reaches hup (by simp)
  | cons c earlier ih =>
      rw [List.map_cons, List.nodup_cons] at hdistinct
      by_cases hname : name ∈ earlier.map (·.name)
      · rw [reaches_cons_iff hdistinct.1 hname] at hup
        rw [reaches_cons_iff hdistinct.1 (declared_of_reaches hup hname)] at hdown
        exact ih hdistinct.2 hup hdown
      · -- The last link of the way back would end at the class, so it would be an earlier one.
        cases hdown.cases_tail with
        | inl heq => exact heq
        | inr hstep =>
            obtain ⟨_, -, hlink⟩ := hstep
            exact absurd hlink.right_of_cons hname

/-! ### Collected classes -/

/-- The last of each class in a list have the names of the classes in the list. -/
theorem mem_names_lastOfEach {l : List EntityClass} :
    above ∈ (lastOfEach l).map (·.name) ↔ above ∈ l.map (·.name) := by
  induction l with
  | nil => rfl
  | cons c rest ih =>
      unfold lastOfEach
      split
      next hlater =>
        rw [ih, List.map_cons, List.mem_cons]
        refine ⟨.inr, fun h => h.elim (fun heq => ?_) id⟩
        simpa [heq] using hlater
      next => simp only [List.map_cons, List.mem_cons, ih]

/-- The classes that are collected for a class are those that are reached from it, if it is
declared. -/
theorem mem_lineageIn_iff (hdistinct : (declared.map (·.name)).Nodup) :
    above ∈ (lineageIn declared name).map (·.name) ↔
      name ∈ declared.map (·.name) ∧ Reaches declared name above := by
  induction declared generalizing name with
  | nil => simp [lineageIn]
  | cons c earlier ih =>
      rw [List.map_cons, List.nodup_cons] at hdistinct
      by_cases hname : c.name = name
      · subst hname
        have hcollected : above ∈ (lineageIn (c :: earlier) c.name).map (·.name) ↔
            c.name = above ∨
              ∃ base ∈ c.bases, base ∈ earlier.map (·.name) ∧ Reaches earlier base above := by
          rw [lineageIn, if_pos rfl, List.map_cons, List.mem_cons, mem_names_lastOfEach,
            List.map_flatMap, List.mem_flatMap]
          simp only [ih hdistinct.2, eq_comm]
        have hreached : Reaches (c :: earlier) c.name above ↔ c.name = above ∨
            ∃ base, Extends (c :: earlier) c.name base ∧ Reaches (c :: earlier) base above :=
          Relation.ReflTransGen.cases_head_iff
        rw [hcollected, hreached, List.map_cons, and_iff_right List.mem_cons_self]
        refine or_congr_right (exists_congr fun base => ?_)
        rw [extends_latest_iff hdistinct.1, and_assoc]
        exact and_congr_right fun _ => and_congr_right fun hbase =>
          (reaches_cons_iff hdistinct.1 hbase).symm
      · rw [lineageIn, if_neg hname, ih hdistinct.2, List.map_cons, List.mem_cons,
          or_iff_right (Ne.symm hname)]
        exact and_congr_right fun hdeclared => (reaches_cons_iff hdistinct.1 hdeclared).symm

variable {classes : EntityClasses}

/-- **A class is found to be below another one exactly if it is.** -/
theorem isBelow_iff : classes.isBelow name above = true ↔ classes.Below name above := by
  have hany : (classes.lineage name).any (·.name = above) = true ↔
      above ∈ (lineageIn classes.declared name).map (·.name) := by
    simp [lineage]
  unfold isBelow Below
  rw [Bool.or_eq_true, Bool.or_eq_true, hany, mem_lineageIn_iff classes.distinct,
    decide_eq_true_iff, decide_eq_true_iff]
  constructor
  · rintro ((rfl | hany) | ⟨-, h⟩)
    · exact .inr .refl
    · exact .inl hany
    · exact .inr h
  · rintro (hany | h)
    · exact .inl (.inr hany)
    · by_cases hname : name ∈ classes.declared.map (·.name)
      · exact .inr ⟨hname, h⟩
      · exact .inl (.inl (eq_of_reaches h hname))

/-- Classes that are below each other are the same one. -/
theorem Below.antisymm (hroot : anyEntity ∉ classes.declared.map (·.name))
    (hup : classes.Below name above) (hdown : classes.Below above name) : name = above := by
  rcases hup with rfl | hup
  · rcases hdown with rfl | hdown
    · rfl
    · exact (eq_of_reaches hdown hroot).symm
  · rcases hdown with rfl | hdown
    · exact eq_of_reaches hup hroot
    · exact reaches_antisymm classes.distinct hup hdown

end OntoCode.EntityClasses

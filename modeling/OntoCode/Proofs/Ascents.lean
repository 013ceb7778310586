/-
How deep a class is, whatever its hierarchy is like.

The depth of a class is found by going up from it: to its superclass, to the superclass of that
one, and so on.  Classes are looked up by IRI in a list, in which the last class with an IRI counts.
An ascent ends at a class without a superclass, at a superclass that is not listed, or at an IRI
that was met before.  So it ends in a hierarchy that runs in circles as well, also where the circle
does not lead through the class that the ascent starts at: the IRIs of the list that are still to
be met become fewer with each link.

What is counted are the IRIs that the ascent passes by.  `depthAmong` leaves those out of the list
that were met, and `Ascent` remembers them; the two agree as long as one has left out what the other
one remembers.
-/
import Mathlib.Data.Finset.Card
import Mathlib.Logic.Relation
import OntoCode.Proofs.DepthOrder

namespace OntoCode.Hierarchy

open OntoCode.Rdf

variable {classes : List ClassDescription} {c above : ClassDescription} {iri : Iri}

/-- The ascent from a class, once some IRIs were met, passes by a list of IRIs of classes that have
a superclass. -/
inductive Ascent (classes : List ClassDescription) :
    List Iri → ClassDescription → List Iri → Prop
  /-- It ends at a class without a superclass. -/
  | root {met : List Iri} {c : ClassDescription} (hroot : c.superclass = none) :
      Ascent classes met c []
  /-- It ends at an IRI that was met before. -/
  | again {met : List Iri} {c : ClassDescription} (hmet : c.iri ∈ met) : Ascent classes met c []
  /-- It ends at a superclass that is not listed, which leaves the class below passed by. -/
  | outside {met : List Iri} {c : ClassDescription} {iri : Iri} (hnew : c.iri ∉ met)
      (hsuper : c.superclass = some iri) (houtside : lastWith? classes iri = none) :
      Ascent classes met c [c.iri]
  | link {met passed : List Iri} {c above : ClassDescription} {iri : Iri} (hnew : c.iri ∉ met)
      (hsuper : c.superclass = some iri) (habove : lastWith? classes iri = some above)
      (hascent : Ascent classes (c.iri :: met) above passed) :
      Ascent classes met c (c.iri :: passed)

/-- A class has a superclass that is listed. -/
def LeadsTo (classes : List ClassDescription) (c above : ClassDescription) : Prop :=
  ∃ iri, c.superclass = some iri ∧ lastWith? classes iri = some above

/-! ### What an ascent passes by -/

namespace Ascent

variable {met other passed : List Iri}

/-- There is one way up. -/
theorem unique (h : Ascent classes met c passed) (hother : Ascent classes met c other) :
    passed = other := by
  induction h generalizing other with
  | root hroot =>
      cases hother with
      | root _ | again _ => rfl
      | outside _ hsuper _ | link _ hsuper _ _ => simp [hroot] at hsuper
  | again hmet =>
      cases hother with
      | root _ | again _ => rfl
      | outside hnew _ _ | link hnew _ _ _ => exact absurd hmet hnew
  | outside hnew hsuper houtside =>
      cases hother with
      | root hroot => simp [hroot] at hsuper
      | again hmet => exact absurd hmet hnew
      | outside _ _ _ => rfl
      | link _ hsuper' habove _ =>
          cases hsuper.symm.trans hsuper'
          simp [houtside] at habove
  | link hnew hsuper habove _ ih =>
      cases hother with
      | root hroot => simp [hroot] at hsuper
      | again hmet => exact absurd hmet hnew
      | outside _ hsuper' houtside =>
          cases hsuper.symm.trans hsuper'
          simp [houtside] at habove
      | link _ hsuper' habove' hascent' =>
          cases hsuper.symm.trans hsuper'
          cases habove.symm.trans habove'
          rw [ih hascent']

/-- No IRI is passed twice, and none that was met before. -/
theorem nodup (h : Ascent classes met c passed) : passed.Nodup ∧ ∀ i ∈ passed, i ∉ met := by
  induction h with
  | root _ | again _ => exact ⟨List.nodup_nil, fun _ hi => absurd hi List.not_mem_nil⟩
  | outside hnew _ _ =>
      exact ⟨List.nodup_singleton _, fun i hi => List.mem_singleton.mp hi ▸ hnew⟩
  | link hnew _ _ _ ih =>
      obtain ⟨hnodup, hfresh⟩ := ih
      refine ⟨List.nodup_cons.mpr ⟨fun hmem => hfresh _ hmem List.mem_cons_self, hnodup⟩, ?_⟩
      intro i hi
      rcases List.mem_cons.mp hi with rfl | hi
      · exact hnew
      · exact fun hmet => hfresh i hi (List.mem_cons_of_mem _ hmet)

/-- What is passed are classes that are reached and have a superclass. -/
theorem exists_reached (h : Ascent classes met c passed) (hiri : iri ∈ passed) :
    ∃ lower, Relation.ReflTransGen (LeadsTo classes) c lower ∧ lower.iri = iri ∧
      lower.superclass ≠ none := by
  induction h with
  | root _ | again _ => exact absurd hiri List.not_mem_nil
  | @outside _ c _ _ hsuper _ =>
      exact ⟨c, .refl, (List.mem_singleton.mp hiri).symm, by simp [hsuper]⟩
  | @link _ _ c _ superclass _ hsuper habove _ ih =>
      rcases List.mem_cons.mp hiri with rfl | hiri
      · exact ⟨c, .refl, rfl, by simp [hsuper]⟩
      · obtain ⟨lower, hreached, hlower⟩ := ih hiri
        exact ⟨lower, .head ⟨superclass, hsuper, habove⟩ hreached, hlower⟩

/-- All that is passed is listed, but for the class that the ascent starts at. -/
theorem mem_of_passed (h : Ascent classes met c passed) (hiri : iri ∈ passed) :
    iri = c.iri ∨ iri ∈ classes.map (·.iri) := by
  obtain ⟨lower, hreached, rfl, -⟩ := h.exists_reached hiri
  rcases hreached.cases_tail with rfl | ⟨_, -, _, -, hlower⟩
  · exact .inl rfl
  · exact .inr (List.mem_map_of_mem (lastWith?_mem hlower).1)

/-- An ascent does not depend on what was met of classes it does not come to. -/
theorem of_met (h : Ascent classes met c passed) (hsame : ∀ higher,
    Relation.ReflTransGen (LeadsTo classes) c higher → (higher.iri ∈ other ↔ higher.iri ∈ met)) :
    Ascent classes other c passed := by
  induction h generalizing other with
  | root hroot => exact .root hroot
  | again hmet => exact .again ((hsame _ .refl).mpr hmet)
  | outside hnew hsuper houtside => exact .outside (mt (hsame _ .refl).mp hnew) hsuper houtside
  | @link _ _ c _ superclass hnew hsuper habove _ ih =>
      refine .link (mt (hsame _ .refl).mp hnew) hsuper habove (ih fun higher hreached => ?_)
      rw [List.mem_cons, List.mem_cons, hsame higher (.head ⟨superclass, hsuper, habove⟩ hreached)]

end Ascent

/-! ### Leaving out what was met -/

/-- The classes whose IRI was not met. -/
def notMet (classes : List ClassDescription) (met : List Iri) : List ClassDescription :=
  classes.filter (·.iri ∉ met)

theorem without_notMet (met : List Iri) :
    without (notMet classes met) iri = notMet classes (iri :: met) := by
  unfold without notMet
  rw [List.filter_filter]
  refine List.filter_congr fun d _ => ?_
  simp [List.mem_cons, not_or]

theorem lastWith?_notMet {met : List Iri} (hnew : iri ∉ met) :
    lastWith? (notMet classes met) iri = lastWith? classes iri := by
  unfold lastWith? notMet
  rw [← List.filter_reverse, List.find?_filter]
  refine congrArg (classes.reverse.find? ·) (funext fun d => ?_)
  by_cases hd : d.iri = iri
  · simp [hd, hnew]
  · simp [hd]

theorem lastWith?_notMet_of_mem {met : List Iri} (hmet : iri ∈ met) :
    lastWith? (notMet classes met) iri = none := by
  refine lastWith?_eq_none.mpr fun d hd hiri => ?_
  have hnew : d.iri ∉ met := by simpa using (List.mem_filter.mp hd).2
  exact hnew (hiri ▸ hmet)

/-- **The links that are counted among the other classes are those of an ascent.** -/
theorem exists_ascent_of_notMet (classes : List ClassDescription) (c : ClassDescription)
    (met : List Iri) (hnew : c.iri ∉ met) :
    ∃ passed, Ascent classes met c passed ∧
      passed.length = depthAmong (notMet classes (c.iri :: met)) c := by
  unfold depthAmong
  split
  · rename_i hroot
    exact ⟨[], .root hroot, rfl⟩
  · rename_i superclass hsuper
    by_cases hmet : superclass ∈ c.iri :: met
    · -- The superclass was met, so that it is among the classes that were left out.
      split
      · cases habove : lastWith? classes superclass with
        | none => exact ⟨[c.iri], .outside hnew hsuper habove, rfl⟩
        | some above =>
            have hagain : above.iri ∈ c.iri :: met := (lastWith?_mem habove).2 ▸ hmet
            exact ⟨[c.iri], .link hnew hsuper habove (.again hagain), rfl⟩
      · rename_i next hnext
        rw [lastWith?_notMet_of_mem hmet] at hnext
        cases hnext
    · split
      · rename_i hnone
        rw [lastWith?_notMet hmet] at hnone
        exact ⟨[c.iri], .outside hnew hsuper hnone, rfl⟩
      · rename_i next hnext
        have hlisted := (lastWith?_notMet hmet).symm.trans hnext
        obtain rfl := (lastWith?_mem hlisted).2
        have hfewer : (notMet classes (next.iri :: c.iri :: met)).length <
            (notMet classes (c.iri :: met)).length :=
          without_notMet (c.iri :: met) ▸ length_without_lt hnext
        rw [without_notMet]
        obtain ⟨passed, hascent, hlength⟩ :=
          exists_ascent_of_notMet classes next (c.iri :: met) hmet
        exact ⟨c.iri :: passed, .link hnew hsuper hlisted hascent, congrArg (· + 1) hlength⟩
termination_by (notMet classes (c.iri :: met)).length

/-! ### Depths -/

theorem exists_ascent (classes : List ClassDescription) (c : ClassDescription) :
    ∃ passed, Ascent classes [] c passed ∧ passed.length = depth classes c := by
  obtain ⟨passed, hascent, hlength⟩ := exists_ascent_of_notMet classes c [] List.not_mem_nil
  refine ⟨passed, hascent, hlength.trans ?_⟩
  unfold depth notMet without
  simp only [List.mem_singleton, ne_eq]

/-- The depth of a class is what an ascent from it counts. -/
theorem Ascent.depth_eq {passed : List Iri} (h : Ascent classes [] c passed) :
    depth classes c = passed.length := by
  obtain ⟨_, hascent, hlength⟩ := exists_ascent classes c
  rw [← hlength, hascent.unique h]

/-- A class is at most one link deeper than there are IRIs. -/
theorem depth_le (classes : List ClassDescription) (c : ClassDescription) :
    depth classes c ≤ (classes.map (·.iri)).toFinset.card + 1 := by
  obtain ⟨passed, hascent, hlength⟩ := exists_ascent classes c
  rw [← hlength, ← List.toFinset_card_of_nodup hascent.nodup.1]
  have hsubset : passed.toFinset ⊆ insert c.iri (classes.map (·.iri)).toFinset := by
    intro i hi
    rw [Finset.mem_insert, List.mem_toFinset]
    exact hascent.mem_of_passed (List.mem_toFinset.mp hi)
  exact (Finset.card_le_card hsubset).trans (Finset.card_insert_le _ _)

/-- A class is one link deeper than its superclass, unless it is met again further up. -/
theorem depth_of_leadsTo (h : LeadsTo classes c above)
    (honce : ∀ higher, Relation.TransGen (LeadsTo classes) c higher → higher.iri ≠ c.iri) :
    depth classes c = depth classes above + 1 := by
  obtain ⟨passed, hascent, hlength⟩ := exists_ascent classes above
  have hrest : Ascent classes [c.iri] above passed := hascent.of_met fun higher hreached =>
    ⟨fun hmet => absurd (List.mem_singleton.mp hmet) (honce higher (.head' h hreached)),
      fun hmet => absurd hmet List.not_mem_nil⟩
  obtain ⟨superclass, hsuper, habove⟩ := h
  rw [(Ascent.link List.not_mem_nil hsuper habove hrest).depth_eq, List.length_cons, hlength]

/-- **The depth of a class counts what is passed on the way up.**

Let a list of classes be given, in which a class is looked up by its IRI, and a class, which may be
listed or not.  There is one ascent from it, whatever circles the list has, and it passes by
different IRIs of classes with a superclass.  Their number is the depth of the class.  So the depth
is at most one more than the number of IRIs that are listed.

A class without a superclass has depth 0, one whose superclass is not listed has depth 1.  If the
superclass is listed and the class is not met again further up, its depth is one more than that of
its superclass. -/
theorem depth_counts_passed (classes : List ClassDescription) (c : ClassDescription) :
    (∃ passed, Ascent classes [] c passed ∧
      (∀ other, Ascent classes [] c other → other = passed) ∧
      passed.Nodup ∧
      (∀ iri ∈ passed, ∃ lower, Relation.ReflTransGen (LeadsTo classes) c lower ∧
        lower.iri = iri ∧ lower.superclass ≠ none) ∧
      depth classes c = passed.length) ∧
    depth classes c ≤ (classes.map (·.iri)).toFinset.card + 1 ∧
    (c.superclass = none → depth classes c = 0) ∧
    (∀ iri, c.superclass = some iri → lastWith? classes iri = none → depth classes c = 1) ∧
    ∀ above, LeadsTo classes c above →
      (∀ higher, Relation.TransGen (LeadsTo classes) c higher → higher.iri ≠ c.iri) →
      depth classes c = depth classes above + 1 := by
  obtain ⟨passed, hascent, hlength⟩ := exists_ascent classes c
  refine ⟨⟨passed, hascent, fun _ hother => hother.unique hascent, hascent.nodup.1,
    fun _ => hascent.exists_reached, hlength.symm⟩, depth_le classes c, ?_, ?_, ?_⟩
  · exact fun hroot => (Ascent.root hroot).depth_eq
  · exact fun _ hsuper houtside => (Ascent.outside List.not_mem_nil hsuper houtside).depth_eq
  · exact fun _ => depth_of_leadsTo

/-! ### Students below a circle -/

namespace Circle

/-- Students are persons. -/
def student : ClassDescription :=
  { iri := ⟨"http://ex.org/a#Student"⟩, superclass := some ⟨"http://ex.org/a#Person"⟩ }

/-- Persons are agents. -/
def person : ClassDescription :=
  { iri := ⟨"http://ex.org/a#Person"⟩, superclass := some ⟨"http://ex.org/a#Agent"⟩ }

/-- Agents are persons. -/
def agent : ClassDescription :=
  { iri := ⟨"http://ex.org/a#Agent"⟩, superclass := some ⟨"http://ex.org/a#Person"⟩ }

/-- Things are at the top. -/
def thing : ClassDescription := { iri := ⟨"http://ex.org/a#Thing"⟩ }

theorem student_leadsTo : LeadsTo [person, agent] student person := ⟨_, rfl, by decide⟩

/-- Students are not listed, so that they are not met further up. -/
theorem student_once (higher : ClassDescription)
    (h : Relation.TransGen (LeadsTo [person, agent]) student higher) :
    higher.iri ≠ student.iri := by
  have hlisted : ∀ d ∈ [person, agent], d.iri ≠ student.iri := by decide
  obtain ⟨_, -, _, -, hhigher⟩ := Relation.TransGen.tail'_iff.mp h
  exact hlisted _ (lastWith?_mem hhigher).1

/-- From a person the way leads to the agents and back. -/
theorem person_ascent :
    Ascent [person, agent] [] person [⟨"http://ex.org/a#Person"⟩, ⟨"http://ex.org/a#Agent"⟩] := by
  have hagent : lastWith? [person, agent] ⟨"http://ex.org/a#Agent"⟩ = some agent := by decide
  have hperson : lastWith? [person, agent] ⟨"http://ex.org/a#Person"⟩ = some person := by decide
  exact .link (by decide) rfl hagent (.link (by decide) rfl hperson (.again (by decide)))

end Circle

/-- Students are one link deeper than persons, and as deep as a class below two listed ones can be.
Where persons are not listed, students have depth 1, and things have no depth. -/
theorem student_below_circle :
    (LeadsTo [Circle.person, Circle.agent] Circle.student Circle.person ∧
      ∀ higher, Relation.TransGen (LeadsTo [Circle.person, Circle.agent]) Circle.student higher →
        higher.iri ≠ Circle.student.iri) ∧
    depth [Circle.person, Circle.agent] Circle.student = 3 ∧
    ([Circle.person, Circle.agent].map (·.iri)).toFinset.card = 2 ∧
    depth [Circle.agent] Circle.student = 1 ∧
    depth [Circle.person, Circle.agent] Circle.thing = 0 := by
  obtain ⟨-, -, -, -, hlink⟩ := depth_counts_passed [Circle.person, Circle.agent] Circle.student
  obtain ⟨-, -, -, houtside, -⟩ := depth_counts_passed [Circle.agent] Circle.student
  obtain ⟨-, -, hroot, -⟩ := depth_counts_passed [Circle.person, Circle.agent] Circle.thing
  refine ⟨⟨Circle.student_leadsTo, Circle.student_once⟩, ?_, by decide,
    houtside _ rfl (by decide), hroot rfl⟩
  rw [hlink _ Circle.student_leadsTo Circle.student_once, Circle.person_ascent.depth_eq]
  rfl

end OntoCode.Hierarchy

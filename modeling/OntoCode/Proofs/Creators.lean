/-
What the creators of a module extend.

The classes of a module are put in order by the IRIs of their superclasses, and which
creator a creator extends is found by the name of the superclass.  For a superclass
that is generated both lead to one class: its creator is extended, and it is declared
earlier in the module.

They part where a superclass is not generated but a class of its name is, or where a
class has the name of the creator that all others go back to.  Then a creator may
extend itself, or one declared later.  `creators_extend` says exactly for which
classes all is well.
-/
import OntoCode.Proofs.Sessions
import OntoCode.Proofs.Superclasses

namespace OntoCode.Generate.JavaScript

open OntoCode.Hierarchy OntoCode.Ontology OntoCode.Rdf OntoCode.Text

variable {style : Style} {classes : List ClassDescription} {b c above : ClassDescription}

/-! ### The declarations of a module -/

/-- The line that declares the creator of a class. -/
def headLine (classes : List ClassDescription) (c : ClassDescription) : String :=
  "class " ++ c.name ++ "Creator extends " ++ extended classes c ++ "Creator \x7b"

/-- One line stands somewhere before another. -/
def LineBefore (code : Code) (first second : String) : Prop := [first, second].Sublist code

theorem headLines_sublist (style : Style) (classes listed : List ClassDescription) :
    (listed.map (headLine classes)).Sublist (listed.flatMap (creatorLines style classes)) := by
  induction listed with
  | nil => exact .slnil
  | cons c rest ih =>
      rw [List.map_cons, List.flatMap_cons]
      exact (List.singleton_sublist.mpr List.mem_cons_self).append ih

/-- The module declares the creators of all classes, in their order. -/
theorem headLines_sublist_moduleLines (style : Style) (classes : List ClassDescription) :
    (classes.map (headLine classes)).Sublist (moduleLines style classes) := by
  unfold moduleLines
  refine (headLines_sublist style classes classes).trans ?_
  simp only [List.append_assoc]
  exact (List.sublist_append_left _ _).trans (List.sublist_append_right _ _)

theorem headLine_mem_moduleLines (hc : c ∈ classes) :
    headLine classes c ∈ moduleLines style classes :=
  (headLines_sublist_moduleLines style classes).subset (List.mem_map_of_mem hc)

theorem lineBefore_of_standsBefore (h : StandsBefore classes above c) :
    LineBefore (moduleLines style classes) (headLine classes above) (headLine classes c) := by
  obtain ⟨i, j, hlt, habove, hc⟩ := h
  obtain ⟨hi, rfl⟩ := List.getElem?_eq_some_iff.mp habove
  obtain ⟨hj, rfl⟩ := List.getElem?_eq_some_iff.mp hc
  have hfirst : classes[i] ∈ classes.take j := List.mem_take_iff_getElem.mpr ⟨i, by omega, rfl⟩
  have hsecond : classes[j] ∈ classes.drop j := by
    rw [List.drop_eq_getElem_cons hj]
    exact List.mem_cons_self
  have hpair : [classes[i], classes[j]].Sublist (classes.take j ++ classes.drop j) :=
    (List.singleton_sublist.mpr hfirst).append (List.singleton_sublist.mpr hsecond)
  rw [List.take_append_drop] at hpair
  exact (hpair.map (headLine classes)).trans (headLines_sublist_moduleLines style classes)

/-! ### The extended creator -/

theorem extended_of_mem (hb : b ∈ classes) (hname : c.superclassName? = some b.name) :
    extended classes c = b.name := by
  have hany : classes.any (·.name = b.name) = true :=
    List.any_eq_true.mpr ⟨b, hb, decide_eq_true rfl⟩
  simp only [extended, hname, hany, if_true]

theorem extended_of_not_mem (h : ∀ b ∈ classes, c.superclassName? ≠ some b.name) :
    extended classes c = "Object" := by
  unfold extended
  cases hname : c.superclassName? with
  | none => rfl
  | some name =>
      have hany : ¬ classes.any (·.name = name) = true := by
        intro hany
        obtain ⟨b, hb, heq⟩ := List.any_eq_true.mp hany
        exact h b hb (by rw [hname, of_decide_eq_true heq])
      exact if_neg hany

/-- The creator of a class extends the common one or, declared earlier, that of its superclass, and
in no case itself. -/
structure ExtendsEarlier (code : Code) (classes : List ClassDescription) (c : ClassDescription) :
    Prop where
  other : extended classes c ≠ c.name
  earlier : extended classes c = "Object" ∨
    ∃ above, Below classes c above ∧ extended classes c = above.name ∧
      LineBefore code (headLine classes above) (headLine classes c)

/-- Where the superclass links by IRI lead to the classes of the names that are looked up, and no
class takes the name of the common creator by mistake, creators extend what they should. -/
theorem extendsEarlier_iff {g : Generator} (h : g.Ordered classes) (hc : c ∈ classes) :
    ExtendsEarlier (moduleLines style classes) classes c ↔
      (c.name = "Object" → ∃ above, Below classes c above) ∧
        ∀ b ∈ classes, c.superclassName? = some b.name → b.name ≠ "Object" → Below classes c b := by
  constructor
  · rintro ⟨hother, hearlier⟩
    refine ⟨fun hobject => ?_, fun b hb hname hne => ?_⟩
    · rcases hearlier with hcommon | ⟨above, hbelow, -, -⟩
      · exact absurd (hcommon.trans hobject.symm) hother
      · exact ⟨above, hbelow⟩
    · have hextended := extended_of_mem hb hname
      rcases hearlier with hcommon | ⟨above, hbelow, habove, -⟩
      · exact absurd (hextended.symm.trans hcommon) hne
      · rwa [h.describes.eq_of_name hb hbelow.2.1 (hextended.symm.trans habove)]
  · rintro ⟨hobject, hlink⟩
    by_cases hfound : ∃ b ∈ classes, c.superclassName? = some b.name
    · obtain ⟨b, hb, hname⟩ := hfound
      have hextended := extended_of_mem hb hname
      have hbelow : b.name ≠ "Object" → Below classes c b := hlink b hb hname
      refine ⟨fun hself => ?_, ?_⟩
      · -- A class is not its own superclass, so only the common name is left.
        obtain rfl := h.describes.eq_of_name hb hc (hextended.symm.trans hself)
        by_cases hcommon : b.name = "Object"
        · obtain ⟨above, habove⟩ := hobject hcommon
          have hsame := (h.describes.superclassName_of_below habove).symm.trans hname
          exact h.ne_of_below habove
            (h.describes.eq_of_name hb habove.2.1 (Option.some.inj hsame).symm)
        · exact h.ne_of_below (hbelow hcommon) rfl
      · by_cases hcommon : b.name = "Object"
        · exact .inl (hextended.trans hcommon)
        · exact .inr ⟨b, hbelow hcommon, hextended,
            lineBefore_of_standsBefore (h.standsBefore (hbelow hcommon))⟩
    · have hnone : ∀ b ∈ classes, c.superclassName? ≠ some b.name :=
        fun b hb hname => hfound ⟨b, hb, hname⟩
      have hextended := extended_of_not_mem hnone
      refine ⟨fun hself => ?_, .inl hextended⟩
      obtain ⟨above, habove⟩ := hobject (hself.symm.trans hextended)
      exact hnone above habove.2.1 (h.describes.superclassName_of_below habove)

/-! ### Modules that a session renders -/

/-- **What the creators of a module extend.**

Take a session with a JavaScript generator, in which any steps were made before, and let it render
the module of classes about whose order nothing is reported.  The module declares a creator for each
class, and

  * the creator of a class whose superclass is generated extends the creator of the superclass, which
    is declared earlier,
  * the creator of a class extends the common one if no class with the name of its superclass is
    generated,
  * the creator of a class extends the common one or an earlier one of its superclass, and not
    itself, exactly if every generated class with the name of its superclass is its superclass, and
    it has not itself the name of the common creator without a generated superclass. -/
theorem creators_extend {g : Generator} (hjs : g.target = .javaScript)
    (h : g.Ordered classes) (earlier : List Step) (files : FileTree)
    {rendered : List Generator.CodeFile}
    (hrendered : Step.render.outcome g (session g earlier files) = .ok rendered) :
    ∃ style, g.style? = .ok style ∧
      rendered = [(g.sharedFile style.vocabulary, textOf (moduleLines style classes))] ∧
      ∀ c ∈ classes,
        headLine classes c ∈ moduleLines style classes ∧
        (∀ above, Below classes c above → extended classes c = above.name ∧
          LineBefore (moduleLines style classes) (headLine classes above) (headLine classes c)) ∧
        ((∀ b ∈ classes, c.superclassName? ≠ some b.name) → extended classes c = "Object") ∧
        (ExtendsEarlier (moduleLines style classes) classes c ↔
          (c.name = "Object" → ∃ above, Below classes c above) ∧
            ∀ b ∈ classes, c.superclassName? = some b.name → b.name ≠ "Object" →
              Below classes c b) := by
  obtain ⟨described, hdescribed, hfiles⟩ := Step.render_ok hrendered
  obtain rfl : described = classes := Except.ok.inj (hdescribed.symm.trans h.described)
  obtain ⟨style, hstyle, rfl, -⟩ := Generator.rendered_ok h.describes hfiles
  have htext : g.files style described =
      [(g.sharedFile style.vocabulary, textOf (moduleLines style described))] := by
    rw [Generator.files, hjs]
    simp only [Generator.sharedText, hjs]
  refine ⟨style, hstyle, htext, fun c hc => ⟨headLine_mem_moduleLines hc, fun above hbelow => ?_,
    extended_of_not_mem, extendsEarlier_iff h hc⟩⟩
  exact ⟨extended_of_mem hbelow.2.1 (h.describes.superclassName_of_below hbelow),
    lineBefore_of_standsBefore (h.standsBefore hbelow)⟩

/-- The module of the creators for persons. -/
def peopleModule : Code :=
  moduleLines ⟨(People.generator .javaScript).settings, "People", "\t"⟩ People.classes

theorem people_rendered :
    Step.render.outcome (People.generator .javaScript)
        (session (People.generator .javaScript) [] { root := "/" }) =
      .ok [("PeopleMappers.js", textOf peopleModule)] := by
  rw [Step.outcome_session]
  exact bind_eq_ok.mpr ⟨People.classes, (People.ordered .javaScript).described, rfl⟩

/-- The creator for students extends the one for persons, which is declared before it. -/
theorem creators_extend_people :
    ((People.generator .javaScript).target = .javaScript ∧
      (People.generator .javaScript).Ordered People.classes ∧
      Step.render.outcome (People.generator .javaScript)
          (session (People.generator .javaScript) [] { root := "/" }) =
        .ok [("PeopleMappers.js", textOf peopleModule)]) ∧
    extended People.classes People.student = "Person" ∧
    ExtendsEarlier peopleModule People.classes People.student := by
  refine ⟨⟨rfl, People.ordered _, people_rendered⟩, ?_⟩
  obtain ⟨style, hstyle, -, hall⟩ :=
    creators_extend rfl (People.ordered _) [] { root := "/" } people_rendered
  obtain rfl : (⟨(People.generator .javaScript).settings, "People", "\t"⟩ : Style) = style :=
    Except.ok.inj hstyle
  obtain ⟨-, hbelow, -, hexact⟩ := hall _ People.student_below_person.1
  refine ⟨(hbelow _ People.student_below_person).1,
    hexact.mpr ⟨fun hobject => absurd hobject (by decide), fun b hb hname _ => ?_⟩⟩
  rcases List.mem_pair.mp hb with rfl | rfl
  · exact People.student_below_person
  · exact absurd hname (by decide)

/-- The creator for persons extends itself: the superclass is not generated, but has the name of the
class. -/
theorem person_extends_itself :
    (People.generator .javaScript).Ordered People.classes ∧
    Step.render.outcome (People.generator .javaScript)
        (session (People.generator .javaScript) [] { root := "/" }) =
      .ok [("PeopleMappers.js", textOf peopleModule)] ∧
    "class PersonCreator extends PersonCreator \x7b" ∈ peopleModule ∧
    ¬ ∀ c ∈ People.classes, ExtendsEarlier peopleModule People.classes c := by
  have hperson : People.person ∈ People.classes := List.mem_cons_self
  have hself : extended People.classes People.person = People.person.name :=
    extended_of_mem hperson (by decide +kernel)
  have hline : headLine People.classes People.person =
      "class PersonCreator extends PersonCreator \x7b" := by
    rw [headLine, hself]
    decide
  refine ⟨People.ordered _, people_rendered, ?_, fun hall => (hall _ hperson).other hself⟩
  rw [← hline]
  exact headLine_mem_moduleLines hperson

end OntoCode.Generate.JavaScript

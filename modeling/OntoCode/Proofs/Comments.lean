/-
How often a Java comment ends.

The comment in front of a class, a field or a constant of the vocabulary says what the ontology
says of it: the title, the description, the IRI and the links.  None of them is escaped, and no
step of their preparation takes an end of a comment out of them.  So the comment ends as often as
they do, and once more at its own end.  That it ends only there is a property of the ontology, not
of the comment: `comment_ends_once_iff` says which one.

The indentation stands in front of the slash that opens the comment and must not end it either.
-/
import OntoCode.Generate.Vocabulary
import OntoCode.Proofs.CommentEnds
import OntoCode.Proofs.InsertionOrder

namespace OntoCode.Generate

open OntoCode.Ontology OntoCode.Rdf OntoCode.Text

/-! ### The ends in lines of code -/

/-- How often some lines hold the end of a comment. -/
def endsIn (code : Code) : Nat := commentEnds (textOf code).toList

theorem toList_textOf (code : Code) :
    (textOf code).toList = code.flatMap fun line => line.toList ++ ['\n'] := by
  have hline : String.toList ∘ (· ++ "\n") = fun line => line.toList ++ ['\n'] :=
    funext fun line => String.toList_append
  rw [textOf, String.toList_join, List.flatMap_map]
  exact congrArg (List.flatMap · code) hline

@[simp] theorem endsIn_nil : endsIn [] = 0 := by decide

@[simp] theorem endsIn_cons (line : String) (code : Code) :
    endsIn (line :: code) = commentEnds line.toList + endsIn code := by
  rw [endsIn, endsIn, toList_textOf, toList_textOf, List.flatMap_cons,
    isGap_newline.commentEnds_between]

@[simp] theorem endsIn_append (code more : Code) :
    endsIn (code ++ more) = endsIn code + endsIn more := by
  induction code with
  | nil => simp
  | cons line code ih => rw [List.cons_append, endsIn_cons, endsIn_cons, ih, Nat.add_assoc]

/-- What a comment says. -/
def Described.texts (item : Described) : List String :=
  item.title.toList ++ item.description.toList ++ [item.iri] ++ item.seeAlso

/-- How often what a comment says holds the end of one.  A link is written twice. -/
def Described.ends (item : Described) : Nat :=
  commentEnds (item.title.getD "").toList + commentEnds (item.description.getD "").toList +
    commentEnds item.iri.toList + 2 * (item.seeAlso.map fun link => commentEnds link.toList).sum

/-- What a comment says about a constant of the vocabulary. -/
def Described.ofTerm (t : VocabularyTerm) : Described := ⟨t.iri.text, t.title, t.description, []⟩

/-- What a comment says holds no end of one if each of its texts holds none. -/
theorem Described.ends_eq_zero_iff {item : Described} :
    item.ends = 0 ↔ ∀ text ∈ item.texts, ¬ ['*', '/'] <:+: text.toList := by
  have hoption : ∀ text : Option String,
      commentEnds (text.getD "").toList = 0 ↔ ∀ t ∈ text.toList, commentEnds t.toList = 0 := by
    rintro (_ | text) <;> simp [commentEnds]
  simp only [ends, texts, ← commentEnds_eq_zero_iff, Nat.add_eq_zero_iff, hoption, Nat.mul_eq_zero,
    List.sum_eq_zero_iff_forall_eq_nat, List.forall_mem_append, List.forall_mem_singleton,
    List.forall_mem_map]
  simp

namespace Java

/-! ### The lines of a comment -/

/-- The lines for a title or a description, with what stands before each. -/
def proseLines (lead : String) (text : Option String) : Code :=
  match proseOf text with
  | some text => commentText lead text ++ [lead ++ "<p>"]
  | none => []

/-- The line for a link. -/
def linkLine (lead link : String) : String :=
  lead ++ "@see <a href=\"" ++ link ++ "\">" ++ link ++ "</a>"

theorem comment_eq (indent : String) (item : Described) :
    comment indent item =
      [indent ++ "/**"] ++ proseLines (indent ++ " * ") item.title ++
      proseLines (indent ++ " * ") item.description ++
      [indent ++ " * " ++ "IRI: \x7b@code <" ++ item.iri ++ ">\x7d"] ++
      given (!item.seeAlso.isEmpty)
        ([indent ++ " *"] ++ item.seeAlso.map (linkLine (indent ++ " * "))) ++
      [indent ++ " */"] := rfl

/-- The opening of a comment starts with a slash behind the indentation. -/
theorem toList_opening (indent : String) :
    (indent ++ "/**").toList = indent.toList ++ ['/'] ++ ['*', '*'] := by
  rw [String.toList_append, List.append_assoc]
  rfl

theorem isGap_star : IsGap " * ".toList := by decide

/-! ### Indented by a text that does not end comments -/

section Clean

variable {indent : String} (hclean : commentEnds (indent.toList ++ ['/']) = 0)

include hclean

theorem commentEnds_indent : commentEnds indent.toList = 0 := by
  have hle := commentEnds_le_append indent.toList ['/']
  omega

theorem commentEnds_indented {line : String} (h : line.toList.head? ≠ some '/') :
    commentEnds (indent ++ line).toList = commentEnds line.toList := by
  rw [String.toList_append, commentEnds_append fun _ => h, commentEnds_indent hclean, Nat.zero_add]

/-- **What stands before a line of a comment adds no end.** -/
theorem commentEnds_lead (line : String) :
    commentEnds (indent ++ " * " ++ line).toList = commentEnds line.toList := by
  rw [String.append_assoc, commentEnds_indented hclean (by simp), String.toList_append,
    isGap_star.commentEnds_behind]

/-- The lines of a wrapped text are kept apart by what stands between them. -/
theorem isGap_lead : IsGap ("\n" ++ (indent ++ " * ")).toList := by
  rw [String.toList_append, String.toList_append, ← List.append_assoc]
  exact isGap_newline.around isGap_star (commentEnds_indent hclean)

/-- **Prose has its own ends and no others,** however it is wrapped. -/
theorem endsIn_commentText (text : List Char) :
    endsIn (commentText (indent ++ " * ") text) = commentEnds text := by
  have hgap := isGap_lead hclean
  simp only [commentText, endsIn_cons, endsIn_nil, Nat.add_zero]
  have hlines : String.toList ∘ String.ofList = id := funext fun line => String.toList_ofList
  rw [commentEnds_lead hclean, String.toList_ofList, commentEnds_sentence,
    String.toList_intercalate, hgap.commentEnds_intercalate, List.map_map (g := String.toList),
    hlines, List.map_id, sum_commentEnds_wrap, commentEnds_singleLine]

theorem endsIn_proseLines (text : Option String) :
    endsIn (proseLines (indent ++ " * ") text) = commentEnds (text.getD "").toList := by
  have hmark : commentEnds (indent ++ " * " ++ "<p>").toList = 0 :=
    (commentEnds_lead hclean _).trans (by decide)
  cases text with
  | none => exact endsIn_nil
  | some text =>
      by_cases hempty : text = ""
      · rw [hempty]
        exact endsIn_nil
      · have hprose : proseOf (some text) = some text.toList := by
          simp [proseOf, Settings.given?, hempty]
        rw [proseLines, hprose, Option.getD_some]
        dsimp only
        rw [endsIn_append, endsIn_commentText hclean, endsIn_cons, hmark, endsIn_nil, Nat.add_zero]

/-- A link stands twice in its line. -/
theorem commentEnds_linkLine (link : String) :
    commentEnds (linkLine (indent ++ " * ") link).toList = 2 * commentEnds link.toList := by
  have hopen : IsGap "@see <a href=\"".toList := by decide
  have hmiddle : IsGap "\">".toList := by decide
  have hclose : IsGap "</a>".toList := by decide
  have hlead : commentEnds (indent ++ " * ").toList = 0 := by
    have hempty := commentEnds_lead hclean ""
    rwa [String.append_empty] at hempty
  rw [linkLine, String.toList_append, String.toList_append, String.toList_append,
    String.toList_append, String.toList_append, hclose.commentEnds_before,
    hmiddle.commentEnds_between, hopen.commentEnds_between, hlead, Nat.zero_add, Nat.two_mul]

theorem endsIn_links (links : List String) :
    endsIn (given (!links.isEmpty)
      ([indent ++ " *"] ++ links.map (linkLine (indent ++ " * ")))) =
    2 * (links.map fun link => commentEnds link.toList).sum := by
  have hstar : commentEnds (indent ++ " *").toList = 0 := commentEnds_indented hclean (by decide)
  have hlines : endsIn (links.map (linkLine (indent ++ " * "))) =
      2 * (links.map fun link => commentEnds link.toList).sum := by
    induction links with
    | nil => rfl
    | cons link links ih =>
        rw [List.map_cons, endsIn_cons, commentEnds_linkLine hclean, ih, List.map_cons,
          List.sum_cons, Nat.mul_add]
  cases links with
  | nil => exact endsIn_nil
  | cons link links =>
      rw [given, List.isEmpty_cons, Bool.not_false, if_pos rfl, endsIn_append, endsIn_cons, hstar,
        hlines, endsIn_nil, Nat.add_zero, Nat.zero_add]

/-- **A comment ends as often as what it says, and once more.** -/
theorem endsIn_comment (item : Described) : endsIn (comment indent item) = item.ends + 1 := by
  have hopen : commentEnds (indent ++ "/**").toList = 0 := by
    rw [toList_opening, commentEnds_append (meetSafely_cons (by decide) _ _), hclean]
    rfl
  have hiri : commentEnds (indent ++ " * " ++ "IRI: \x7b@code <" ++ item.iri ++ ">\x7d").toList =
      commentEnds item.iri.toList := by
    have hbefore : IsGap "IRI: \x7b@code <".toList := by decide
    have hbehind : IsGap ">\x7d".toList := by decide
    rw [String.append_assoc, String.append_assoc, commentEnds_lead hclean, String.toList_append,
      String.toList_append, hbefore.commentEnds_behind, hbehind.commentEnds_before]
  have hclose : commentEnds (indent ++ " */").toList = 1 := commentEnds_indented hclean (by decide)
  rw [comment_eq, Described.ends]
  simp only [endsIn_append, endsIn_cons, endsIn_nil, hopen, hiri, hclose,
    endsIn_proseLines hclean, endsIn_links hclean]
  omega

end Clean

/-- If the indentation and the slash behind it end a comment, this one ends twice at least. -/
theorem one_lt_endsIn_comment {indent : String} (h : commentEnds (indent.toList ++ ['/']) ≠ 0)
    (item : Described) : 1 < endsIn (comment indent item) := by
  have hopen : 0 < commentEnds (indent ++ "/**").toList := by
    have hle := commentEnds_le_append (indent.toList ++ ['/']) ['*', '*']
    rw [toList_opening]
    omega
  have hclose : 0 < commentEnds (indent ++ " */").toList := by
    have hle := commentEnds_le_append indent.toList " */".toList
    have hone : commentEnds " */".toList = 1 := by decide
    rw [String.toList_append]
    omega
  simp only [comment_eq, endsIn_append, endsIn_cons, endsIn_nil]
  omega

/-- A comment ends at its end. -/
theorem exists_textOf_comment (indent : String) (item : Described) :
    ∃ body, (textOf (comment indent item)).toList = body ++ ['*', '/', '\n'] := by
  have hclose : (indent ++ " */").toList ++ ['\n'] =
      (indent.toList ++ [' ']) ++ ['*', '/', '\n'] := by
    rw [String.toList_append, List.append_assoc, List.append_assoc]
    rfl
  rw [comment_eq, toList_textOf, List.flatMap_append, List.flatMap_singleton, hclose,
    ← List.append_assoc]
  exact ⟨_, rfl⟩

/-! ### Where comments stand -/

/-- Code in which a comment says what there is to say of a class, a field or a constant. -/
inductive Commented (style : Style) : Code → String → Described → Prop
  | ofClass (c : ClassDescription) : Commented style (classLines style c) "" (.ofClass c)
  | ofField {c : ClassDescription} {f : Field} (h : f ∈ c.fields) :
      Commented style (classLines style c) style.indent (.ofProperty f.property)
  | ofTerm {namespaceText label : String} {constants : List VocabularyTerm} {t : VocabularyTerm}
      (h : t ∈ constants) :
      Commented style (Vocabulary.javaLines style namespaceText label constants) style.indent
        (.ofTerm t)

theorem infix_flatMap {α β : Type} {f : α → List β} {a : α} {xs : List α} (h : a ∈ xs) :
    f a <:+: xs.flatMap f := by
  rw [List.flatMap_def]
  exact List.infix_of_mem_flatten (List.mem_map_of_mem h)

/-- The comment stands in the code. -/
theorem Commented.infix_code {style : Style} {code : Code} {indent : String} {item : Described}
    (h : Commented style code indent item) : comment indent item <:+: code := by
  cases h with
  | ofClass c =>
      simp only [classLines, List.append_assoc]
      exact List.infix_append_of_infix_right (List.infix_append' _ _ _)
  | @ofField c f hf =>
      have hfield : comment style.indent (.ofProperty f.property) <:+: declarations style c := by
        refine List.infix_append_of_infix_left (List.IsInfix.trans ?_ (infix_flatMap hf))
        rw [List.append_assoc]
        exact List.infix_append_left
      refine hfield.trans ?_
      simp only [classLines, List.append_assoc]
      iterate 6 apply List.infix_append_of_infix_right
      exact List.infix_append_left
  | @ofTerm namespaceText label constants t ht =>
      have hterm : comment style.indent (.ofTerm t) <:+: constants.flatMap fun t =>
          comment style.indent (.ofTerm t) ++
            style.deep 1 ["public static final IRI " ++ t.name ++ ";"] ++ [""] := by
        refine List.IsInfix.trans ?_ (infix_flatMap ht)
        rw [List.append_assoc]
        exact List.infix_append_left
      refine hterm.trans ?_
      simp only [Vocabulary.javaLines, ← Described.ofTerm.eq_1, List.append_assoc]
      iterate 6 apply List.infix_append_of_infix_right
      exact List.infix_append_left

/-- **A Java comment ends once exactly if nothing that it says ends it.**

The comment of a class, of each of its fields or of a constant of the vocabulary stands in the code
as one block, and the block ends where a comment ends.  It ends nowhere else exactly if no text of
it holds a star in front of a slash, whatever the texts are folded to and wherever their lines are
broken; the indentation, which stands in front of the opening slash, counts as one of them. -/
theorem comment_ends_once_iff {style : Style} {code : Code} {indent : String} {item : Described}
    (h : Commented style code indent item) :
    comment indent item <:+: code ∧
    (∃ body, (textOf (comment indent item)).toList = body ++ ['*', '/', '\n']) ∧
    (endsIn (comment indent item) = 1 ↔
      ¬ ['*', '/'] <:+: indent.toList ++ ['/'] ∧
        ∀ text ∈ item.texts, ¬ ['*', '/'] <:+: text.toList) := by
  refine ⟨h.infix_code, exists_textOf_comment indent item, ?_⟩
  rw [← commentEnds_eq_zero_iff, ← Described.ends_eq_zero_iff]
  by_cases hclean : commentEnds (indent.toList ++ ['/']) = 0
  · rw [endsIn_comment hclean]
    omega
  · have hmore := one_lt_endsIn_comment hclean item
    omega

/-! ### Stars and slashes -/

namespace Paths

/-- What the code is generated with. -/
def style : Style := ⟨plainSettings, "Paths", "    "⟩

/-- A constant whose texts end with stars and start with slashes. -/
def wildcard : VocabularyTerm :=
  { iri := ⟨"http://ex.org/a#wildcard"⟩
    name := "wildcard"
    title := some "Any name: *"
    description := some "/ separates names, /* and * / stand for any of them" }

/-- The vocabulary with this constant. -/
def vocabulary : Code := Vocabulary.javaLines style "http://ex.org/a#" "paths" [wildcard]

/-- A person, whose description tells where the names of persons are. -/
def statements : List Triple :=
  [⟨.iri ⟨"http://ex.org/a#Person"⟩, rdfType, .iri (owl "Class")⟩,
   ⟨.iri ⟨"http://ex.org/a#Person"⟩, rdfs "comment",
    .literal { text := "Matches persons/*/name." }⟩]

/-- The class of persons. -/
def person : ClassDescription :=
  { iri := ⟨"http://ex.org/a#Person"⟩, description := some "Matches persons/*/name." }

end Paths

/-- The comment of the constant stands in the vocabulary and ends once. -/
theorem wildcard_comment_ends_once :
    Commented Paths.style Paths.vocabulary "    " (.ofTerm Paths.wildcard) ∧
    comment "    " (.ofTerm Paths.wildcard) <:+: Paths.vocabulary ∧
    endsIn (comment "    " (.ofTerm Paths.wildcard)) = 1 := by
  have hterm : Commented Paths.style Paths.vocabulary "    " (.ofTerm Paths.wildcard) :=
    .ofTerm (List.mem_singleton_self Paths.wildcard)
  obtain ⟨hstands, -, honce⟩ := comment_ends_once_iff hterm
  exact ⟨hterm, hstands, honce.mpr ⟨by decide, by decide⟩⟩

/-- The comment of the class ends in the middle of its description. -/
theorem person_comment_ends_twice :
    describe .java (ontologyOf Paths.statements) ⟨"http://ex.org/a#Person"⟩ = .ok Paths.person ∧
    endsIn (comment "" (.ofClass Paths.person)) = 2 := by
  constructor
  · decide +kernel
  · rw [endsIn_comment (by decide)]
    decide

end Java

end OntoCode.Generate

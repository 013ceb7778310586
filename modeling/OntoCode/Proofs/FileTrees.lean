/-
Where paths lead, and what writing changes.

A path is as good as the list of its parts, and `below?` looks at nothing else.  A
file in a directory has the parts of the directory and its own name behind them, so
it lies right below the place of the directory.  Walking a path and spelling it out
without its detours end at one place, so two paths to one directory are spelled alike
unless only one of them starts with two slashes.

Writing changes what is at one place.  Directories, and thereby the ways of all
paths, stay as they are, so that many files are written where each of them could be
written alone.  What is found at a place afterwards is what was written there last.
-/
import OntoCode.Files.Tree

namespace OntoCode.FileTree

/-! ### The parts of a path -/

theorem parts_ne_nil (path : String) : parts path ≠ [] := by
  simp [parts, List.splitOn_ne_nil]

theorem intercalate_parts (path : String) : "/".intercalate (parts path) = path := by
  rw [← String.toList_inj, String.toList_intercalate, parts, List.map_map]
  have hid : (String.toList ∘ String.ofList) = id := by
    funext s
    exact String.toList_ofList
  rw [hid, List.map_id]
  exact List.intercalate_splitOn '/'

theorem parts_injective {a b : String} (h : parts a = parts b) : a = b := by
  rw [← intercalate_parts a, h, intercalate_parts]

theorem parts_slash (a b : String) : parts (a ++ "/" ++ b) = parts a ++ parts b := by
  have hlist : (a ++ "/" ++ b).toList = a.toList ++ '/' :: b.toList := by simp
  rw [parts, hlist, List.splitOn_append_cons_self, List.map_append]
  rfl

theorem parts_of_plain {name : String} (h : '/' ∉ name.toList) : parts name = [name] := by
  rw [parts, List.splitOn_eq_singleton h]
  simp

/-- A path that ends in a slash has an empty last part, in whose stead another path can stand. -/
theorem parts_endsWith {directory : String} (h : directory.endsWith "/" = true) (path : String) :
    ∃ before, parts directory = before ++ [""] ∧ before ≠ [] ∧
      parts (directory ++ path) = before ++ parts path := by
  rw [← String.endsWith_toSlice, String.Slice.endsWith_string_iff] at h
  obtain ⟨before, hbefore⟩ := h
  have hdirectory : directory = String.ofList before ++ "/" ++ "" := by
    rw [← String.toList_inj, ← @String.copy_toSlice directory, ← hbefore]
    simp
  refine ⟨parts (String.ofList before), ?_, parts_ne_nil _, ?_⟩
  · rw [hdirectory, parts_slash]
    rfl
  · rw [hdirectory, String.append_empty, parts_slash]

/-- Paths below a path are those whose parts start with the parts of that path. -/
theorem parts_prefix_iff (root path : String) :
    parts root <+: parts path ↔ path = root ∨ path.startsWith (root ++ "/") = true := by
  refine ⟨fun ⟨rest, hrest⟩ => ?_, fun h => ?_⟩
  · by_cases hnil : rest = []
    · rw [hnil, List.append_nil] at hrest
      exact .inl (parts_injective hrest.symm)
    · refine .inr (String.startsWith_string_iff.mpr ⟨("/".intercalate rest).toList, ?_⟩)
      rw [← intercalate_parts path, ← hrest,
        String.intercalate_append_of_ne_nil (parts_ne_nil root) hnil, intercalate_parts]
      simp
  · rcases h with rfl | h
    · exact List.prefix_rfl
    · obtain ⟨rest, hrest⟩ := String.startsWith_string_iff.mp h
      have hpath : path = root ++ "/" ++ String.ofList rest := by
        rw [← String.toList_inj, ← hrest]
        simp
      rw [hpath, parts_slash]
      exact List.prefix_append ..

/-- Paths from the root on are those with an empty part in front of others. -/
theorem startsWith_slash_iff (path : String) :
    path.startsWith "/" = true ↔ ∃ first rest, parts path = "" :: first :: rest := by
  refine ⟨fun h => ?_, fun ⟨first, rest, h⟩ => ?_⟩
  · obtain ⟨rest, hrest⟩ := String.startsWith_string_iff.mp h
    have hpath : path = "" ++ "/" ++ String.ofList rest := by
      rw [← String.toList_inj, ← hrest]
      simp
    obtain ⟨first, more, hmore⟩ := List.exists_cons_of_ne_nil (parts_ne_nil (String.ofList rest))
    exact ⟨first, more, by rw [hpath, parts_slash, hmore]; rfl⟩
  · rw [← intercalate_parts path, h, String.intercalate_cons_cons, String.startsWith_string_iff]
    simp

/-! ### Where paths lead -/

/-- The paths of the root and of the working directory are spelled as paths are. -/
structure Rooted (t : FileTree) : Prop where
  /-- The path of the root is a name, or it starts with a slash. -/
  root : '/' ∉ t.root.toList ∨ t.root.startsWith "/" = true
  /-- It does not end in a slash. -/
  ending : t.root.endsWith "/" = false
  /-- The steps to the working directory are parts of a path. -/
  start : ∀ part ∈ t.start, '/' ∉ part.toList

/-- The name of a file, and not a step that leads nowhere or back. -/
structure IsName (name : String) : Prop where
  slash : '/' ∉ name.toList
  nonempty : name ≠ ""
  here : name ≠ "."
  back : name ≠ ".."

variable {t u : FileTree} {path directory name : String} {place : Place}

theorem below?_eq (t : FileTree) (path : String) :
    t.below? path =
      if parts t.root <+: parts path then some ((parts path).drop (parts t.root).length)
      else if path.startsWith "/" then none else some (t.start ++ parts path) := by
  unfold below?
  by_cases hroot : path = t.root
  · subst hroot
    simp
  · by_cases hbelow : path.startsWith (t.root ++ "/") = true
    · obtain ⟨rest, hrest⟩ := String.startsWith_string_iff.mp hbelow
      have hpath : path = t.root ++ "/" ++ String.ofList rest := by
        rw [← String.toList_inj, ← hrest]
        simp
      have hdrop : path.toList.drop (t.root.length + 1) = rest := by
        rw [← hrest, ← String.length_toList, String.toList_append, List.drop_append]
        simp
      rw [if_neg hroot, if_pos hbelow, if_pos ((parts_prefix_iff ..).mpr (.inr hbelow)), hdrop,
        hpath, parts_slash, List.drop_left]
    · have hnot : ¬ parts t.root <+: parts path := by
        rw [parts_prefix_iff]
        exact not_or.mpr ⟨hroot, hbelow⟩
      rw [if_neg hroot, if_neg hbelow, if_neg hnot]

theorem walk?_append (t : FileTree) (here : Place) (xs ys : List String) :
    t.walk? here (xs ++ ys) = (t.walk? here xs).bind fun there => t.walk? there ys := by
  induction xs generalizing here with
  | nil => rfl
  | cons part rest ih =>
      simp only [List.cons_append, walk?]
      split
      · rfl
      · split
        · exact ih here
        · split
          · split
            · split
              · exact ih _
              · rfl
            · exact ih _
          · exact ih _

theorem walk?_name (hname : IsName name) (here : Place) :
    t.walk? here [name] = if t.hasDirectory here then some (here ++ [name]) else none := by
  simp only [walk?, hname.nonempty, hname.here, hname.back]
  cases t.hasDirectory here <;> rfl

theorem walk?_empty (t : FileTree) (here : Place) :
    t.walk? here [""] = if t.hasDirectory here then some here else none := by
  simp only [walk?]
  cases t.hasDirectory here <;> rfl

/-- The parts of a directory, without the empty one that a slash at its end makes, stand before
the name of a file in it. -/
theorem parts_join (hname : IsName name) (hdirectory : directory ≠ "") :
    ∃ before, before ≠ [] ∧ (parts directory = before ∨ parts directory = before ++ [""]) ∧
      parts (join directory name) = before ++ [name] := by
  have hplain : name.startsWith "/" = false := by
    refine Bool.eq_false_iff.mpr fun h => ?_
    obtain ⟨rest, hrest⟩ := String.startsWith_string_iff.mp h
    exact hname.slash (by rw [← hrest]; simp)
  unfold join
  rw [hplain]
  by_cases hends : directory.endsWith "/" = true
  · obtain ⟨before, hparts, hbefore, hjoined⟩ := parts_endsWith hends name
    rw [parts_of_plain hname.slash] at hjoined
    exact ⟨before, hbefore, .inr hparts, by simp [hends, hjoined]⟩
  · refine ⟨parts directory, parts_ne_nil _, .inl rfl, ?_⟩
    simp only [hdirectory, hends, Bool.false_eq_true, if_false, decide_false, Bool.false_or,
      parts_slash, parts_of_plain hname.slash]

/-- The path of the root has no part, or it has an empty one in front and none at its end. -/
theorem Rooted.parts_root (ht : t.Rooted) :
    parts t.root = [t.root] ∨
      ∃ first rest, parts t.root = "" :: first :: rest ∧ (first :: rest).getLast? ≠ some "" := by
  rcases ht.root with hplain | hslash
  · exact .inl (parts_of_plain hplain)
  · obtain ⟨first, rest, hparts⟩ := (startsWith_slash_iff _).mp hslash
    refine .inr ⟨first, rest, hparts, fun hlast => ?_⟩
    obtain ⟨before, hbefore⟩ := List.getLast?_eq_some_iff.mp hlast
    have hroot : t.root = "/".intercalate ("" :: before) ++ "/" := by
      rw [← intercalate_parts t.root, hparts, hbefore, ← List.cons_append,
        String.intercalate_append_of_ne_nil (by simp) (by simp)]
      simp
    have hends : t.root.endsWith "/" = true := by
      rw [← String.endsWith_toSlice, String.Slice.endsWith_string_iff, String.copy_toSlice, hroot]
      simp
    rw [ht.ending] at hends
    cases hends

/-- The root is no path that ends in a slash, nor one of several parts that is a relative one. -/
theorem Rooted.prefix_of_concat (ht : t.Rooted) {before : List String} {last : String}
    (hbefore : before ≠ []) (hlast : last = "" ∨ before.head? ≠ some "")
    (h : parts t.root <+: before ++ [last]) : parts t.root <+: before := by
  rw [List.prefix_concat_iff] at h
  rcases h with hroot | hin
  · rcases ht.parts_root with hone | ⟨first, rest, hmore, hend⟩
    · rw [hone] at hroot
      exact absurd (List.append_eq_singleton_iff.mp hroot.symm) (by simp [hbefore])
    · rw [hmore] at hroot
      rcases hlast with rfl | hhead
      · have hempty := congrArg List.getLast? hroot
        rw [List.getLast?_cons_cons, List.getLast?_concat] at hempty
        exact absurd hempty hend
      · obtain ⟨part, others, rfl⟩ := List.exists_cons_of_ne_nil hbefore
        rw [List.cons_append, List.cons.injEq] at hroot
        exact absurd (by rw [← hroot.1]; rfl) hhead
  · exact hin

/-- A path that does not start with a slash does not start with an empty part. -/
theorem head?_parts (hdirectory : directory ≠ "") (hslash : ¬ directory.startsWith "/" = true) :
    (parts directory).head? ≠ some "" := by
  intro hhead
  obtain ⟨tail, htail⟩ := List.head?_eq_some_iff.mp hhead
  cases tail with
  | nil => exact hdirectory (parts_injective htail)
  | cons first rest => exact hslash ((startsWith_slash_iff _).mpr ⟨first, rest, htail⟩)

/-- A path to somewhere leads there from the root by its own parts or by those of the working
directory and its own; so does the path of a file behind it. -/
theorem below?_join (ht : t.Rooted) (hname : IsName name) (hdirectory : directory ≠ "")
    {steps : List String} (h : t.below? directory = some steps) :
    ∃ before, (steps = before ∨ steps = before ++ [""]) ∧
      t.below? (join directory name) = some (before ++ [name]) := by
  obtain ⟨before, hbefore, hparts, hjoined⟩ := parts_join hname hdirectory
  have hinside : before <+: parts directory := by
    rcases hparts with hparts | hparts
    · exact hparts ▸ List.prefix_rfl
    · exact hparts ▸ List.prefix_append ..
  rw [below?_eq] at h ⊢
  rw [hjoined]
  by_cases hbelow : parts t.root <+: parts directory
  · have hin : parts t.root <+: before := by
      rcases hparts with hparts | hparts
      · exact hparts ▸ hbelow
      · exact ht.prefix_of_concat hbefore (.inl rfl) (hparts ▸ hbelow)
    rw [if_pos hbelow, Option.some.injEq] at h
    rw [if_pos (hin.trans (List.prefix_append ..)), List.drop_append_of_le_length hin.length_le]
    refine ⟨before.drop (parts t.root).length, hparts.imp (fun hparts => ?_) fun hparts => ?_, rfl⟩
    · rw [← h, hparts]
    · rw [← h, hparts, List.drop_append_of_le_length hin.length_le]
  · rw [if_neg hbelow] at h
    have hslash : ¬ directory.startsWith "/" = true := fun hslash => by simp [hslash] at h
    have hhead : ∀ rest, (before ++ rest).head? ≠ some "" := by
      intro rest hempty
      obtain ⟨part, others, rfl⟩ := List.exists_cons_of_ne_nil hbefore
      obtain ⟨more, hmore⟩ := hinside
      exact head?_parts hdirectory hslash (hmore ▸ hempty)
    have hout : ¬ parts t.root <+: before ++ [name] := fun hfile =>
      hbelow ((ht.prefix_of_concat hbefore
        (.inr (by simpa using hhead [])) hfile).trans hinside)
    have hjoin : ¬ (join directory name).startsWith "/" = true := by
      rw [startsWith_slash_iff, hjoined]
      intro ⟨first, rest, hfirst⟩
      exact hhead [name] (hfirst ▸ rfl)
    rw [if_neg hslash, Option.some.injEq] at h
    rw [if_neg hout, if_neg hjoin, ← List.append_assoc]
    refine ⟨t.start ++ before, hparts.imp (fun hparts => ?_) fun hparts => ?_, rfl⟩
    · rw [← h, hparts]
    · rw [← h, hparts, List.append_assoc]

/-- **A file in a directory lies right below the place of the directory.** -/
theorem place?_join (ht : t.Rooted) (hname : IsName name) (hplace : t.place? directory = some place)
    (hdirectory : t.hasDirectory place = true) :
    t.place? (join directory name) = some (place ++ [name]) := by
  unfold place? at hplace
  by_cases hempty : directory = ""
  · simp [hempty] at hplace
  · rw [if_neg hempty, Option.bind_eq_some_iff] at hplace
    obtain ⟨steps, hsteps, hwalk⟩ := hplace
    obtain ⟨before, hbefore, hbelow⟩ := below?_join ht hname hempty hsteps
    have hfull : join directory name ≠ "" := by
      intro hjoined
      obtain ⟨ahead, hahead, -, hparts⟩ := parts_join hname hempty
      have hlength := congrArg List.length hparts
      rw [hjoined, List.length_append] at hlength
      exact hahead (List.length_eq_zero_iff.mp (by simpa [parts] using hlength))
    have hthere : t.walk? [] before = some place := by
      rcases hbefore with rfl | rfl
      · exact hwalk
      · obtain ⟨there, hthere, hlast⟩ := Option.bind_eq_some_iff.mp (walk?_append t .. ▸ hwalk)
        rw [walk?_empty] at hlast
        split at hlast
        · rw [hthere, hlast]
        · cases hlast
    unfold place?
    rw [if_neg hfull, hbelow, Option.bind_some, walk?_append, hthere, Option.bind_some,
      walk?_name hname, if_pos hdirectory]

/-! ### Paths that are spelled alike -/

theorem normalize_concat (before : List String) (part : String) :
    normalize (before ++ [part]) =
      if part = "" || part = "." then normalize before
      else if part = ".." then (normalize before).dropLast else normalize before ++ [part] := by
  simp only [normalize, List.foldl_append, List.foldl_cons, List.foldl_nil]

/-- Walking on and leaving out the detours end at one place. -/
theorem normalize_append_of_walk? {above here : Place} {before steps : List String}
    (habove : t.root = "" → above = []) (hbefore : normalize before = above ++ here)
    (h : t.walk? here steps = some place) :
    normalize (before ++ steps) = above ++ place := by
  induction steps generalizing here before with
  | nil =>
      cases h
      rwa [List.append_nil]
  | cons part rest ih =>
      rw [List.append_cons]
      unfold walk? at h
      split at h
      · cases h
      · split at h
        · rename_i hstay
          refine ih ?_ h
          rw [normalize_concat, if_pos hstay, hbefore]
        · rename_i hstay
          split at h
          · rename_i hback
            cases here with
            | nil =>
                -- nothing is above the root of all files
                dsimp only at h
                split at h
                · rename_i hroot
                  refine ih ?_ h
                  rw [normalize_concat, if_neg hstay, if_pos hback, hbefore, habove hroot]
                  rfl
                · cases h
            | cons first more =>
                refine ih ?_ h
                rw [normalize_concat, if_neg hstay, if_pos hback, hbefore,
                  List.dropLast_append_of_ne_nil (by simp)]
          · rename_i hback
            refine ih ?_ h
            rw [normalize_concat, if_neg hstay, if_neg hback, hbefore, List.append_assoc]

theorem parts_intercalate {steps : List String} (h : ∀ part ∈ steps, '/' ∉ part.toList)
    (first : String) : parts ("/".intercalate (first :: steps)) = parts first ++ steps := by
  induction steps generalizing first with
  | nil => rw [String.intercalate_singleton, List.append_nil]
  | cons second rest ih =>
      rw [String.intercalate_cons_cons, parts_slash, ih fun part hpart => h part (by simp [hpart]),
        parts_of_plain (h second (by simp))]
      rfl

/-- What is put together without detours depends on the first parts without theirs. -/
theorem normalize_append_congr {xs ys : List String} (h : normalize xs = normalize ys)
    (steps : List String) : normalize (xs ++ steps) = normalize (ys ++ steps) := by
  unfold normalize at h ⊢
  rw [List.foldl_append, List.foldl_append, h]

/-- The path of the working directory, without detours. -/
theorem normalize_workingDirectory (ht : t.Rooted) :
    normalize (parts t.workingDirectory) = normalize (parts t.root ++ t.start) := by
  unfold workingDirectory
  split
  · rename_i htop
    obtain ⟨hroot, hstart⟩ := by simpa using htop
    rw [hroot, hstart]
    rfl
  · rw [parts_intercalate ht.start]

/-- A relative path behind a directory has the parts of both. -/
theorem normalize_join (hslash : ¬ path.startsWith "/" = true) (directory : String) :
    normalize (parts (join directory path)) = normalize (parts directory ++ parts path) := by
  unfold join
  rw [if_neg hslash]
  split
  · rename_i hends
    rcases (by simpa using hends : directory = "" ∨ directory.endsWith "/" = true) with rfl | hends
    · rw [String.empty_append]
      rfl
    · obtain ⟨before, hparts, -, hjoined⟩ := parts_endsWith hends path
      rw [hjoined, hparts]
      refine normalize_append_congr ?_ _
      rw [normalize_concat, if_pos (by simp)]
  · rw [parts_slash]

/-- A path without its detours is the path of the root and the place that it leads to. -/
theorem normalize_absolute (ht : t.Rooted) (h : t.place? path = some place) :
    normalize (parts (t.absolute path)) = normalize (parts t.root) ++ place := by
  unfold place? at h
  split at h
  · cases h
  · rename_i hempty
    obtain ⟨steps, hsteps, hwalk⟩ := Option.bind_eq_some_iff.mp h
    have hfrom : ∀ {before}, normalize before = normalize (parts t.root) →
        normalize (before ++ steps) = normalize (parts t.root) ++ place :=
      fun hbefore => normalize_append_of_walk? (fun hroot => by rw [hroot]; rfl)
        (by rw [hbefore, List.append_nil]) hwalk
    rw [below?_eq] at hsteps
    unfold absolute
    by_cases hbelow : parts t.root <+: parts path
    · rw [if_pos hbelow, Option.some.injEq] at hsteps
      have hspelled : (path ≠ "" && (path = t.root || path.startsWith (t.root ++ "/") ||
          path.startsWith "/")) = true := by
        rcases (parts_prefix_iff ..).mp hbelow with hroot | hunder
        · simp [hempty, ← hroot]
        · simp [hempty, hunder]
      obtain ⟨rest, hrest⟩ := hbelow
      rw [if_pos hspelled, ← hrest]
      rw [← hrest, List.drop_left] at hsteps
      exact hsteps ▸ hfrom rfl
    · rw [if_neg hbelow] at hsteps
      split at hsteps
      · cases hsteps
      · rename_i hslash
        have hspelled : ¬ (path ≠ "" && (path = t.root || path.startsWith (t.root ++ "/") ||
            path.startsWith "/")) = true := by
          rw [parts_prefix_iff, not_or] at hbelow
          simp [hbelow, hslash]
        rw [Option.some.injEq] at hsteps
        rw [if_neg hspelled, normalize_join hslash,
          normalize_append_congr (normalize_workingDirectory ht), List.append_assoc, hsteps]
        exact hfrom rfl

/-- **Paths are spelled alike if and only if they lead to one place and start alike.** -/
theorem sameSpelling_iff (ht : t.Rooted) {other : String} {there : Place}
    (hpath : t.place? path = some place) (hother : t.place? other = some there) :
    t.sameSpelling path other = true ↔
      place = there ∧ t.startsTwice path = t.startsTwice other := by
  unfold sameSpelling
  rw [Bool.and_eq_true, decide_eq_true_iff, decide_eq_true_iff, normalize_absolute ht hpath,
    normalize_absolute ht hother, List.append_cancel_left_eq, and_comm]

/-! ### Writing one file -/

/-- What is at a place: no file, or one with its text if its bytes are text. -/
def fileAt? (t : FileTree) (place : Place) : Option (Option String) :=
  (t.files.find? (·.1 = place)).map (·.2)

theorem hasFile_eq (t : FileTree) (place : Place) : t.hasFile place = (t.fileAt? place).isSome := by
  rw [Bool.eq_iff_iff, hasFile, fileAt?, Option.isSome_map, List.find?_isSome, List.any_eq_true]

theorem read?_eq (h : t.place? path = some place) : t.read? path = (t.fileAt? place).join := by
  have hfile := hasFile_eq t place
  unfold read? filePlace?
  rw [h, Option.filter_some]
  unfold fileAt? at hfile ⊢
  cases hfound : t.files.find? (·.1 = place) with
  | none => simp [hfile, hfound]
  | some file => simp [hfile, hfound]

/-- Paths to one place find one text. -/
theorem read?_congr {other : String} (h : t.place? path = t.place? other) :
    t.read? path = t.read? other := by
  unfold read? filePlace?
  rw [h]

/-- Where the texts at a place are replaced, only files at that place are found changed. -/
theorem find?_replace (files : List (Place × Option String)) (place there : Place) (text : String) :
    (files.map fun file => if file.1 = place then (place, some text) else file).find?
        (·.1 = there) =
      if there = place then (files.find? (·.1 = place)).map fun _ => (place, some text)
      else files.find? (·.1 = there) := by
  induction files with
  | nil => simp
  | cons file rest ih =>
      rw [List.map_cons, List.find?_cons, List.find?_cons, List.find?_cons, ih]
      by_cases hin : file.1 = place
      · by_cases hthere : there = place
        · simp [hin, hthere]
        · simp [hin, hthere, Ne.symm hthere]
      · by_cases hthere : there = place
        · simp [hin, hthere]
        · simp [hin, hthere]

/-- Putting a text into a place changes what is there, and nothing else. -/
theorem fileAt?_put (t : FileTree) (place there : Place) (text : String) :
    (t.put place text).fileAt? there =
      if there = place then some (some text) else t.fileAt? there := by
  have hfile := hasFile_eq t place
  unfold put
  split
  · rename_i hhas
    rw [hhas, fileAt?, Option.isSome_map] at hfile
    obtain ⟨file, hfound⟩ := Option.isSome_iff_exists.mp hfile.symm
    rw [fileAt?, find?_replace]
    by_cases hthere : there = place
    · rw [if_pos hthere, if_pos hthere, hfound]
      rfl
    · rw [if_neg hthere, if_neg hthere, fileAt?]
  · rename_i hhas
    rw [Bool.eq_false_iff.mpr hhas, fileAt?, Option.isSome_map] at hfile
    have hnone : t.files.find? (·.1 = place) = none := Option.isSome_eq_false_iff.mp hfile.symm |>
      Option.isNone_iff_eq_none.mp
    rw [fileAt?, List.find?_append]
    by_cases hthere : there = place
    · simp [hthere, hnone]
    · simp [hthere, Ne.symm hthere, fileAt?]

/-- The trees have the same directories, and paths start where they did. -/
structure SameDirectories (t u : FileTree) : Prop where
  root : u.root = t.root
  start : u.start = t.start
  directories : u.directories = t.directories

namespace SameDirectories

theorem refl (t : FileTree) : SameDirectories t t := ⟨rfl, rfl, rfl⟩

theorem trans {v : FileTree} (h : SameDirectories t u) (h' : SameDirectories u v) :
    SameDirectories t v :=
  ⟨h'.root.trans h.root, h'.start.trans h.start, h'.directories.trans h.directories⟩

theorem put (t : FileTree) (place : Place) (text : String) :
    SameDirectories t (t.put place text) := by
  unfold FileTree.put
  split <;> exact ⟨rfl, rfl, rfl⟩

theorem hasDirectory (h : SameDirectories t u) (place : Place) :
    u.hasDirectory place = t.hasDirectory place := by
  rw [FileTree.hasDirectory, h.directories, FileTree.hasDirectory]

theorem walk? (h : SameDirectories t u) (here : Place) (steps : List String) :
    u.walk? here steps = t.walk? here steps := by
  induction steps generalizing here with
  | nil => rfl
  | cons part rest ih => simp only [FileTree.walk?, h.hasDirectory, h.root, ih]

/-- Paths lead to where they did. -/
theorem place? (h : SameDirectories t u) (path : String) : u.place? path = t.place? path := by
  have hwalk : u.walk? [] = t.walk? [] := funext (h.walk? [])
  unfold FileTree.place? below?
  rw [h.root, h.start, hwalk]

theorem isDirectory (h : SameDirectories t u) (path : String) :
    u.isDirectory path = t.isDirectory path := by
  have hhas : u.hasDirectory = t.hasDirectory := funext h.hasDirectory
  rw [FileTree.isDirectory, h.place?, hhas, FileTree.isDirectory]

end SameDirectories

/-- A file can be written to the path: it is in a directory, and is none itself. -/
def CanWrite (t : FileTree) (path : String) : Prop :=
  ∃ place, t.place? path = some place ∧ t.hasDirectory place = false ∧
    t.hasDirectory place.dropLast = true

theorem SameDirectories.canWrite (h : SameDirectories t u) (hpath : t.CanWrite path) :
    u.CanWrite path := by
  obtain ⟨place, hplace, hnone, habove⟩ := hpath
  exact ⟨place, by rw [h.place?, hplace], by rw [h.hasDirectory, hnone],
    by rw [h.hasDirectory, habove]⟩

theorem CanWrite.write (h : t.CanWrite path) (text : String) :
    ∃ place, t.place? path = some place ∧ t.write path text = .ok (t.put place text) := by
  obtain ⟨place, hplace, hnone, habove⟩ := h
  refine ⟨place, hplace, ?_⟩
  simp [FileTree.write, hplace, hnone, habove]

/-- The path is the one of a name in a directory. -/
def IsInside (t : FileTree) (path : String) : Prop :=
  ∃ directory name, path = join directory name ∧ t.isDirectory directory = true ∧ IsName name

/-- What is inside of a directory can be written, unless it is a directory. -/
theorem IsInside.canWrite (ht : t.Rooted) (h : t.IsInside path)
    (hfree : t.isDirectory path = false) : t.CanWrite path := by
  obtain ⟨directory, name, rfl, hdirectory, hname⟩ := h
  obtain ⟨place, hplace, hhas⟩ := (Option.any_eq_true _ _).mp hdirectory
  have hjoin := place?_join ht hname hplace hhas
  refine ⟨place ++ [name], hjoin, ?_, ?_⟩
  · rwa [isDirectory, hjoin, Option.any_some] at hfree
  · rwa [List.dropLast_concat]

/-- Without directories but the root there is none inside of it. -/
theorem IsInside.isDirectory_eq_false (ht : t.Rooted) (h : t.IsInside path)
    (hnone : t.directories = []) : t.isDirectory path = false := by
  obtain ⟨directory, name, rfl, hdirectory, hname⟩ := h
  obtain ⟨place, hplace, hhas⟩ := (Option.any_eq_true _ _).mp hdirectory
  rw [isDirectory, place?_join ht hname hplace hhas, Option.any_some, hasDirectory, hnone]
  simp

/-! ### Writing many files -/

/-- The files after texts were written to paths, one after the other. -/
def writeAll (t : FileTree) (texts : List (String × String)) : Except FileError FileTree :=
  texts.foldlM (fun t (path, text) => t.write path text) t

/-- What writing files leaves. -/
structure Wrote (before : FileTree) (texts : List (String × String)) (after : FileTree) : Prop where
  directories : SameDirectories before after
  /-- What no path leads to is left alone. -/
  others : ∀ place, (∀ file ∈ texts, before.place? file.1 ≠ some place) →
    after.fileAt? place = before.fileAt? place
  /-- A file has its text, unless another one is written to its place later. -/
  written : ∀ earlier file later, texts = earlier ++ file :: later →
    (∀ other ∈ later, before.place? other.1 ≠ before.place? file.1) →
      after.read? file.1 = some file.2

/-- Files at different places have their texts. -/
theorem Wrote.of_nodup {texts : List (String × String)} (h : Wrote t texts u)
    (hnodup : (texts.map fun file => t.place? file.1).Nodup) :
    ∀ file ∈ texts, u.read? file.1 = some file.2 := by
  intro file hfile
  obtain ⟨earlier, later, rfl⟩ := List.append_of_mem hfile
  refine h.written earlier file later rfl fun other hother heq => ?_
  rw [List.map_append, List.map_cons, List.nodup_append, List.nodup_cons] at hnodup
  exact hnodup.2.1.1 (List.mem_map.mpr ⟨other, hother, heq⟩)

/-- **Files that can be written one by one can be written one after the other.** -/
theorem writeAll_ok {texts : List (String × String)} (h : ∀ file ∈ texts, t.CanWrite file.1) :
    ∃ left, t.writeAll texts = .ok left ∧ Wrote t texts left := by
  induction texts generalizing t with
  | nil => exact ⟨t, rfl, .refl t, fun _ _ => rfl, fun _ _ _ hsplit => by simp at hsplit⟩
  | cons first rest ih =>
      obtain ⟨path, text⟩ := first
      have hpath : t.CanWrite path := h (path, text) (by simp)
      obtain ⟨place, hplace, hwrite⟩ := hpath.write text
      have hsame := SameDirectories.put t place text
      obtain ⟨left, hleft, hwrote⟩ :=
        ih (fun file hfile => hsame.canWrite (h file (by simp [hfile])))
      refine ⟨left, ?_, hsame.trans hwrote.directories, ?_, ?_⟩
      · rw [writeAll, List.foldlM_cons]
        show (t.write path text >>= fun t => t.writeAll rest) = .ok left
        rw [hwrite]
        exact hleft
      · intro there hthere
        have hfirst : there ≠ place := by
          intro heq
          exact hthere (path, text) (by simp) (by rw [hplace, heq])
        rw [hwrote.others there fun file hfile => by
          rw [hsame.place?]
          exact hthere file (by simp [hfile]), fileAt?_put, if_neg hfirst]
      · intro earlier file later hsplit hlast
        cases earlier with
        | nil =>
            -- What is written first stays, as nothing is written there again.
            obtain ⟨rfl, rfl⟩ := by simpa using hsplit
            have hstays := hwrote.others place fun other hother hagain => hlast other hother (by
              rw [hplace, ← hagain, hsame.place?])
            rw [fileAt?_put, if_pos rfl] at hstays
            rw [read?_eq (by rw [(hsame.trans hwrote.directories).place?, hplace]), hstays]
            rfl
        | cons _ earlier =>
            obtain ⟨-, rfl⟩ := by simpa using hsplit
            refine hwrote.written earlier file later rfl ?_
            simpa only [hsame.place?] using hlast

end OntoCode.FileTree

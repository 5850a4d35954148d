import Decaf.Proofs.CommandLine.Reports

/-!
# What was put into a folder is read back

`find_put` says what stands at each place behind a `Folder.put`: the file where its path ends, a
folder at the places on the way to it where nothing stood, and what stood there before at all other
places. A path that leads from part to part through folders ends where its names say
(`follow_along`), so the file that was put under a path is the one that is read under it
(`read_put`), and a run in the folder reports on its text (`respond_in_put`).
-/

namespace Decaf

namespace Folder

variable {folder : Folder} {place other : List String} {entry : Entry}

/-! ## Places -/

/-- An entry stands where it was set. -/
theorem find_set_self (hplace : place ≠ []) :
    (folder.set place entry).find? place = some entry := by
  rw [find?, if_neg hplace, set, List.lookup_cons_self]

/-- Setting an entry changes no other place. -/
theorem find_set_of_ne (hne : other ≠ place) :
    (folder.set place entry).find? other = folder.find? other := by
  have hne : (other == place) = false := beq_false_of_ne hne
  rw [find?, find?, set, List.lookup_cons, hne]

/-- Opening a place puts a folder there if nothing stands there, and changes no other place. -/
theorem find_open_at (folder : Folder) (place other : List String) :
    (folder.openAt place).find? other =
      (folder.find? other).or (if other = place then some .folder else none) := by
  unfold openAt
  by_cases hother : other = place
  · subst hother
    split
    · next hsome =>
      obtain ⟨entry, hentry⟩ := Option.isSome_iff_exists.mp hsome
      rw [hentry, Option.some_or]
    · next hnone =>
      have hplace : other ≠ [] := by
        rintro rfl
        exact hnone rfl
      rw [find_set_self hplace, if_pos rfl, Option.not_isSome_iff_eq_none.mp hnone, Option.none_or]
  · rw [if_neg hother, Option.or_none]
    split
    · rfl
    · exact find_set_of_ne hother

/-! ## The way to a place -/

/-- The names among the parts of a path; the other parts stay where they are. -/
def namesOf (parts : List String) : List String :=
  parts.filter fun part ↦ part ≠ "" ∧ part ≠ "."

/-- The places on the way from a place down some names, with both ends. -/
def OnWay (place names other : List String) : Prop :=
  place <+: other ∧ other <+: place ++ names

/-- Whether a place is on a way can be tested. -/
instance (place names other : List String) : Decidable (OnWay place names other) :=
  inferInstanceAs (Decidable (_ ∧ _))

/-- A way starts where it starts. -/
theorem on_way_start (place names : List String) : OnWay place names place :=
  ⟨List.prefix_refl place, List.prefix_append place names⟩

/-- A way ends where its names lead. -/
theorem on_way_end (place names : List String) : OnWay place names (place ++ names) :=
  ⟨List.prefix_append place names, List.prefix_refl _⟩

/-- A way down a name starts with one more place than the way from there. -/
theorem on_way_cons {name : String} {names : List String} :
    OnWay place (name :: names) other ↔ other = place ∨ OnWay (place ++ [name]) names other := by
  constructor
  · rintro ⟨⟨tail, rfl⟩, hother⟩
    rw [List.prefix_append_right_inj, List.prefix_cons_iff] at hother
    rcases hother with rfl | ⟨rest, rfl, hrest⟩
    · exact Or.inl (List.append_nil place)
    · refine Or.inr ⟨⟨rest, by simp⟩, ?_⟩
      rw [List.append_cons, List.prefix_append_right_inj]
      exact hrest
  · rintro (rfl | ⟨hplace, hother⟩)
    · exact on_way_start other _
    · rw [← List.append_cons] at hother
      exact ⟨(List.prefix_append place [name]).trans hplace, hother⟩

section

variable {part : String} {parts : List String}

/-- An empty part and a single dot stay. -/
theorem onward_of_stays (h : part = "" ∨ part = ".") (place : List String) :
    onward place part = place :=
  if_pos h

/-- A name goes down. -/
theorem onward_of_name (h : ¬ (part = "" ∨ part = ".")) (hup : part ≠ "..")
    (place : List String) : onward place part = place ++ [part] := by
  rw [onward, if_neg h, if_neg hup]

/-- A part that stays is no name. -/
theorem names_of_stays (h : part = "" ∨ part = ".") (parts : List String) :
    namesOf (part :: parts) = namesOf parts := by
  refine List.filter_cons_of_neg ?_
  simpa [← not_or] using h

/-- Any other part is a name. -/
theorem names_of_name (h : ¬ (part = "" ∨ part = ".")) (parts : List String) :
    namesOf (part :: parts) = part :: namesOf parts := by
  refine List.filter_cons_of_pos ?_
  simpa [not_or] using h

/-- Parts that do not lead up end at the place that their names lead down to. -/
theorem open_along_place (hup : ".." ∉ parts) :
    (folder.openAlong place parts).2 = place ++ namesOf parts := by
  induction parts generalizing folder place with
  | nil => exact (List.append_nil place).symm
  | cons part parts ih =>
      have hpart : part ≠ ".." := Ne.symm (List.ne_of_not_mem_cons hup)
      rw [openAlong, ih (List.not_mem_of_not_mem_cons hup)]
      by_cases hstays : part = "" ∨ part = "."
      · rw [onward_of_stays hstays, names_of_stays hstays]
      · rw [onward_of_name hstays hpart, names_of_name hstays, ← List.append_cons]

/-- Opening along parts that do not lead up puts a folder at every place on the way where nothing
stands, and changes no other place. -/
theorem find_open_along (hup : ".." ∉ parts) (hplace : (folder.find? place).isSome)
    (other : List String) :
    (folder.openAlong place parts).1.find? other =
      (folder.find? other).or
        (if OnWay place (namesOf parts) other then some .folder else none) := by
  have hnot_start {folder : Folder} {place : List String} (hplace : (folder.find? place).isSome)
      (hnone : folder.find? other = none) : other ≠ place := by
    rintro rfl
    rw [hnone] at hplace
    cases hplace
  induction parts generalizing folder place with
  | nil =>
      show folder.find? other = _
      cases hfound : folder.find? other with
      | some entry => rw [Option.some_or]
      | none =>
          have hway : ¬ OnWay place (namesOf []) other := by
            rintro ⟨hplace', hother⟩
            rw [namesOf, List.filter_nil, List.append_nil] at hother
            exact hnot_start hplace hfound
              (hother.eq_of_length_le hplace'.length_le)
          rw [if_neg hway, Option.none_or]
  | cons part parts ih =>
      have hpart : part ≠ ".." := Ne.symm (List.ne_of_not_mem_cons hup)
      have hopened : ((folder.openAt (onward place part)).find? (onward place part)).isSome := by
        rw [find_open_at, if_pos rfl]
        cases folder.find? (onward place part) <;> rfl
      rw [openAlong, ih (List.not_mem_of_not_mem_cons hup) hopened, find_open_at, Option.or_assoc]
      cases hfound : folder.find? other with
      | some entry => rw [Option.some_or, Option.some_or]
      | none =>
          have hne := hnot_start hplace hfound
          rw [Option.none_or, Option.none_or]
          by_cases hstays : part = "" ∨ part = "."
          · rw [onward_of_stays hstays, names_of_stays hstays, if_neg hne, Option.none_or]
          · rw [onward_of_name hstays hpart, names_of_name hstays]
            simp only [on_way_cons, hne, false_or]
            by_cases hdown : other = place ++ [part]
            · rw [if_pos hdown, if_pos (hdown ▸ on_way_start _ _), Option.some_or]
            · rw [if_neg hdown, Option.none_or]

/-- A path whose parts do not lead up is followed through the folders on its way. -/
theorem follow_along {rest : List String}
    (hparts : ∀ part ∈ parts, part ≠ ".." ∧ part.utf8ByteSize ≤ longestName)
    (hway : ∀ way, OnWay place (namesOf parts) way → folder.find? way = some .folder) :
    folder.follow (some place) (parts ++ rest) =
      folder.follow (some (place ++ namesOf parts)) rest := by
  induction parts generalizing place with
  | nil => rw [namesOf, List.filter_nil, List.append_nil, List.nil_append]
  | cons part parts ih =>
      obtain ⟨⟨hup, hsize⟩, hparts⟩ := List.forall_mem_cons.mp hparts
      rw [List.cons_append, follow, hway place (on_way_start _ _)]
      by_cases hstays : part = "" ∨ part = "."
      · rw [names_of_stays hstays] at hway ⊢
        simp only [if_pos hstays]
        exact ih hparts hway
      · rw [names_of_name hstays] at hway ⊢
        simp only [if_neg hstays, if_neg hup, if_neg (Nat.not_lt_of_le hsize)]
        rw [ih hparts fun way h ↦ hway way (on_way_cons.mpr (Or.inr h)), ← List.append_cons]

end

/-! ## What was put -/

/-- A path that leads from a folder down: it can be looked up at all, it starts in the folder, and
none of its parts leads up. -/
structure LeadsDown (path : String) : Prop where
  no_null : '\x00' ∉ path.toList
  short : path.utf8ByteSize ≤ longestPath
  inside : ∃ c ∈ path.toList.head?, c ≠ '/'
  down : ∀ part ∈ partsOf path, part ≠ ".." ∧ part.utf8ByteSize ≤ longestName

/-- A path that leads down to a file, which its last part names. -/
structure NamesFile (path : String) : Prop extends LeadsDown path where
  named : ∃ name ∈ (partsOf path).getLast?, ¬ (name = "" ∨ name = ".")

/-- The place that a path leads down to. -/
def placeOf (path : String) : List String :=
  namesOf (partsOf path)

section

variable {path : String} {bytes : ByteArray}

/-- A path that leads down is followed from the folder on. -/
theorem LeadsDown.resolve_eq (h : LeadsDown path) (folder : Folder) :
    folder.resolve path = folder.follow (some []) (partsOf path) := by
  obtain ⟨c, hc, hslash⟩ := h.inside
  have hnull : path.toList.contains '\x00' = false := by simpa using h.no_null
  have hne : path ≠ "" := by
    rintro rfl
    cases hc
  have hhead : path.toList.head? ≠ some '/' := by
    rw [Option.mem_def.mp hc]
    exact fun heq ↦ hslash (Option.some.inj heq)
  rw [resolve, hnull, if_neg (by simp), if_neg hne, if_neg (Nat.not_lt_of_le h.short),
    if_neg hhead]

/-- A path to a file ends with a name, and its place is reached from that of the other parts. -/
theorem NamesFile.split (h : NamesFile path) :
    ∃ front name, partsOf path = front ++ [name] ∧ ¬ (name = "" ∨ name = ".") ∧
      placeOf path = namesOf front ++ [name] := by
  obtain ⟨name, hlast, hname⟩ := h.named
  have hparts := (List.dropLast_append_getLast? name hlast).symm
  refine ⟨(partsOf path).dropLast, name, hparts, hname, ?_⟩
  conv_lhs => rw [placeOf, hparts]
  rw [namesOf, List.filter_append, ← namesOf, ← namesOf, names_of_name hname]
  rfl

/-- Behind a put, the file stands at the place of its path, folders stand at the places above it
where nothing stood, and everything else is as before. -/
theorem find_put (h : NamesFile path) (folder : Folder) (other : List String) :
    (folder.put path (.file bytes)).find? other =
      if other = placeOf path then some (.file bytes)
      else (folder.find? other).or (if other <+: placeOf path then some .folder else none) := by
  obtain ⟨front, name, hparts, hname, hplace⟩ := h.split
  have hup : ".." ∉ front := by
    intro hmem
    exact (h.down ".." (by rw [hparts]; exact List.mem_append_left [name] hmem)).1 rfl
  have hdown : name ≠ ".." := (h.down name (by simp [hparts])).1
  have hset : folder.put path (.file bytes) =
      (folder.openAlong [] front).1.set (placeOf path) (.file bytes) := by
    simp only [put, hparts, List.dropLast_concat, List.getLastD_concat, open_along_place hup,
      onward_of_name hname hdown, hplace, List.nil_append]
  rw [hset]
  by_cases hother : other = placeOf path
  · have hne : placeOf path ≠ [] := by simp [hplace]
    rw [if_pos hother, hother, find_set_self hne]
  · have hway : OnWay [] (namesOf front) other ↔ other <+: placeOf path := by
      rw [hplace, List.prefix_concat_iff, or_iff_right (hplace ▸ hother)]
      exact and_iff_right List.nil_prefix
    rw [if_neg hother, find_set_of_ne hother, find_open_along hup rfl]
    simp only [hway]

/-- Where no file stands, a folder stands or is opened. -/
theorem or_folder (hfile : ∀ other, folder.find? place ≠ some (.file other)) :
    (folder.find? place).or (some .folder) = some .folder := by
  cases hfound : folder.find? place with
  | none => rfl
  | some entry =>
      cases entry with
      | folder => rfl
      | file other => exact absurd hfound (hfile other)

/-- A file that was put under a path is found at the end of this path, if no other file stands in
the way. -/
theorem resolve_put (h : NamesFile path)
    (hway : ∀ way, way <+: placeOf path → way ≠ placeOf path →
      ∀ other, folder.find? way ≠ some (.file other)) :
    (folder.put path (.file bytes)).resolve path = .ok (.file bytes) := by
  obtain ⟨front, name, hparts, hname, hplace⟩ := h.split
  have hdown := h.down
  rw [hparts] at hdown
  obtain ⟨hup, hsize⟩ := hdown name (by simp)
  have hfolders : ∀ way, OnWay [] (namesOf front) way →
      (folder.put path (.file bytes)).find? way = some .folder := by
    rintro way ⟨-, hfront⟩
    have hprefix : way <+: placeOf path := by
      rw [hplace]
      exact hfront.trans (List.prefix_append _ _)
    have hne : way ≠ placeOf path := by
      rintro rfl
      have hlength := hfront.length_le
      rw [hplace, List.length_append, List.length_singleton, List.nil_append] at hlength
      omega
    rw [find_put h, if_neg hne, if_pos hprefix, or_folder (hway way hprefix hne)]
  rw [h.resolve_eq, hparts,
    follow_along (fun part hpart ↦ hdown part (List.mem_append_left [name] hpart)) hfolders,
    follow, hfolders _ (on_way_end _ _)]
  simp only [if_neg hname, if_neg hup, if_neg (Nat.not_lt_of_le hsize)]
  rw [follow, List.nil_append, ← hplace, find_put h, if_pos rfl]

/-- A folder that was put under a path is found at the end of this path, if no file stands there or
in the way. -/
theorem resolve_put_folder (h : LeadsDown path)
    (hway : ∀ way, way <+: placeOf path → ∀ other, folder.find? way ≠ some (.file other)) :
    (folder.put path .folder).resolve path = .ok .folder := by
  have hup : ".." ∉ partsOf path := fun hmem ↦ (h.down ".." hmem).1 rfl
  have hfolders : ∀ way, OnWay [] (namesOf (partsOf path)) way →
      (folder.put path .folder).find? way = some .folder := by
    intro way hon
    show (folder.openAlong [] (partsOf path)).1.find? way = _
    rw [find_open_along hup rfl, if_pos hon, or_folder (hway way hon.2)]
  rw [h.resolve_eq, ← List.append_nil (partsOf path), follow_along h.down hfolders, follow,
    hfolders _ (on_way_end _ _)]

/-- What was put under a path is read back under it, if no other file stands in the way. -/
theorem read_put (h : NamesFile path)
    (hway : ∀ way, way <+: placeOf path → way ≠ placeOf path →
      ∀ other, folder.find? way ≠ some (.file other)) :
    (folder.put path (.file bytes)).read path = decode bytes := by
  rw [read, resolve_put h hway]

/-- The bytes of a text are read as this text. -/
theorem decode_to_utf8 (text : String) : decode text.toUTF8 = .ok text := by
  have hvalid : text.toUTF8.IsValidUTF8 := text.isValidUTF8
  rw [decode, String.fromUTF8?, dif_pos hvalid]
  rfl

end

end Folder

/-- A run in a folder reports on the text that was put under the path that its arguments name. -/
theorem respond_in_put {folder : Folder} {arguments : List String} {options : Options}
    (source : String) (harguments : Options.ofArguments arguments = .ok options)
    (hpath : Folder.NamesFile options.file)
    (hway : ∀ way, way <+: Folder.placeOf options.file → way ≠ Folder.placeOf options.file →
      ∀ other, folder.find? way ≠ some (.file other)) :
    respondIn (folder.put options.file (.file source.toUTF8)) arguments =
      .ofSource options source :=
  Opens.respond ⟨harguments, (Folder.read_put hpath hway).trans (Folder.decode_to_utf8 source)⟩

/-- A file that is put alone, under a path with a part that stays. -/
example (source : String) :
    respondIn (Folder.empty.put "p/./q" (.file source.toUTF8)) ["--quiet", "p/./q"] =
      .ofSource ⟨"p/./q", false, true⟩ source := by
  have harguments : Options.ofArguments ["--quiet", "p/./q"] = .ok ⟨"p/./q", false, true⟩ := rfl
  have hpath : Folder.NamesFile "p/./q" :=
    ⟨⟨by decide, by decide, ⟨'p', rfl, by decide⟩, by decide⟩, ⟨"q", rfl, by decide⟩⟩
  have hway (way : List String) (other : ByteArray) :
      Folder.empty.find? way ≠ some (.file other) := by
    unfold Folder.find?
    split
    · exact nofun
    · exact nofun
  have hreport := respond_in_put source harguments hpath fun way _ _ ↦ hway way
  exact hreport

end Decaf

import Chip8.Proofs.FileTree

/-!
# Paths of entries

The path of a name in a directory is put together as a text and taken apart again at its slashes.
Whether the directory is given with a slash at its end or without one, as `.` or as the empty text,
walking along the result is walking to the directory and then taking one part more. So the rules for
a single part say where such a path leads: a part with the name of an entry leads to the entry, and
the empty part, `.` and `..` lead to directories and never to anything that can be read.

What is a name in a tree and what is a path is checked apart. A directory may be reached whose
entries are not, as their paths are too long; and the empty text is no path, though names put behind
it are paths.

## Main definitions

* `FileTree.IsName` — the texts that are names of entries
* `FileTree.WellFormed` — trees whose entries have names, no two of a directory the same
* `FileTree.HasEntry` — what stands directly in the directory of a path

## Main results

* `FileTree.baseName_eq_self_iff` — the texts without slashes are their own last parts
* `FileTree.resolveFrom_parts_join` — the path of a name leads there in two stages
* `FileTree.hasEntry_of_resolve_join` — what a name leads to is an entry of the directory
* `FileTree.WellFormed.resolve_join` — the name of an entry leads to it
-/

namespace Chip8

namespace FileTree

variable {t u : FileTree} {name part path : String} {place p : List String}
  {entries : List (String × FileTree)} {contents : Bytes}

/-! ### Taking texts apart -/

section Split

variable {separator : Char} {cs ds : List Char}

theorem splitAt_ne_nil (separator : Char) (cs : List Char) : splitAt separator cs ≠ [] := by
  cases cs with
  | nil => exact List.cons_ne_nil _ _
  | cons c rest =>
    rw [splitAt]
    split
    · exact List.cons_ne_nil _ _
    · split
      · exact List.cons_ne_nil _ _
      · exact List.cons_ne_nil _ _

/-- A separator in front ends an empty part. -/
theorem splitAt_cons_self (separator : Char) (cs : List Char) :
    splitAt separator (separator :: cs) = [] :: splitAt separator cs := if_pos rfl

/-- A character that is no separator goes in front of the first part. -/
theorem splitAt_cons_of_ne {c : Char} (h : c ≠ separator) {first : List Char}
    {others : List (List Char)} (hrest : splitAt separator cs = first :: others) :
    splitAt separator (c :: cs) = (c :: first) :: others := by
  rw [splitAt, if_neg h, hrest]

theorem splitAt_of_not_mem (h : separator ∉ cs) : splitAt separator cs = [cs] := by
  induction cs with
  | nil => rfl
  | cons c rest ih =>
    obtain ⟨hc, hrest⟩ := not_or.1 (mt List.mem_cons.2 h)
    exact splitAt_cons_of_ne (Ne.symm hc) (ih hrest)

/-- A separator parts a text: the parts in front of it and those behind it. -/
theorem splitAt_append_cons (separator : Char) (cs ds : List Char) :
    splitAt separator (cs ++ separator :: ds) = splitAt separator cs ++ splitAt separator ds := by
  induction cs with
  | nil => exact splitAt_cons_self separator ds
  | cons c rest ih =>
    rw [List.cons_append]
    by_cases hc : c = separator
    · rw [hc, splitAt_cons_self, ih, splitAt_cons_self, List.cons_append]
    · obtain ⟨first, others, hrest⟩ := List.exists_cons_of_ne_nil (splitAt_ne_nil separator rest)
      rw [hrest, List.cons_append] at ih
      rw [splitAt_cons_of_ne hc ih, splitAt_cons_of_ne hc hrest, List.cons_append]

/-- The parts have no separators, and no characters that the text does not have. -/
theorem of_mem_splitAt {part : List Char} (h : part ∈ splitAt separator cs) :
    separator ∉ part ∧ part ⊆ cs := by
  induction cs generalizing part with
  | nil =>
    obtain rfl : part = [] := List.mem_singleton.1 h
    exact ⟨List.not_mem_nil, List.nil_subset []⟩
  | cons c rest ih =>
    by_cases hc : c = separator
    · rw [hc, splitAt_cons_self, List.mem_cons] at h
      rcases h with rfl | h
      · exact ⟨List.not_mem_nil, List.nil_subset _⟩
      · exact ⟨(ih h).1, List.subset_cons_of_subset c (ih h).2⟩
    · obtain ⟨first, others, hrest⟩ := List.exists_cons_of_ne_nil (splitAt_ne_nil separator rest)
      rw [splitAt_cons_of_ne hc hrest, List.mem_cons] at h
      rw [hrest] at ih
      rcases h with rfl | h
      · obtain ⟨hfirst, hsub⟩ := ih List.mem_cons_self
        exact ⟨List.not_mem_cons_of_ne_of_not_mem (Ne.symm hc) hfirst, List.cons_subset_cons c hsub⟩
      · obtain ⟨hpart, hsub⟩ := ih (List.mem_cons_of_mem first h)
        exact ⟨hpart, List.subset_cons_of_subset c hsub⟩

end Split

theorem parts_of_no_slash (h : '/' ∉ path.toList) : parts path = [path] := by
  rw [parts, splitAt_of_not_mem h, List.map_singleton, String.ofList_toList]

theorem parts_append_slash (front back : String) :
    parts (front ++ "/" ++ back) = parts front ++ parts back := by
  have hchars : (front ++ "/" ++ back).toList = front.toList ++ '/' :: back.toList := by
    rw [String.toList_append, String.toList_append, List.append_assoc]
    rfl
  rw [parts, hchars, splitAt_append_cons, List.map_append, parts, parts]

theorem of_mem_parts (h : part ∈ parts path) :
    '/' ∉ part.toList ∧ part.toList ⊆ path.toList := by
  obtain ⟨cs, hcs, rfl⟩ := List.mem_map.1 h
  rw [String.toList_ofList]
  exact of_mem_splitAt hcs

/-- **The texts without slashes are their own last parts.** -/
theorem baseName_eq_self_iff : baseName name = name ↔ '/' ∉ name.toList := by
  constructor
  · intro h
    rw [baseName] at h
    cases hlast : (parts name).getLast? with
    | none =>
      rw [hlast] at h
      obtain rfl : "" = name := h
      exact List.not_mem_nil
    | some last =>
      rw [hlast] at h
      obtain rfl : last = name := h
      exact (of_mem_parts (List.mem_of_getLast? hlast)).1
  · intro h
    rw [baseName, parts_of_no_slash h]
    rfl

/-! ### Texts that are paths -/

theorem checkPath_eq_ok_iff : checkPath path = .ok () ↔
    '\x00' ∉ path.toList ∧ path ≠ "" ∧ path.utf8ByteSize ≤ maxPathBytes := by
  rw [checkPath, Except.ite_error_eq_ok, Except.ite_error_eq_ok, Except.ite_error_eq_ok]
  simp

theorem resolve_eq_ok : t.resolve path = .ok place ↔
    checkPath path = .ok () ∧ t.resolveFrom [] (parts path) = .ok place := by
  rw [resolve, Except.bind_eq_ok]
  constructor
  · rintro ⟨⟨⟩, hcheck, hway⟩
    exact ⟨hcheck, hway⟩
  · rintro ⟨hcheck, hway⟩
    exact ⟨(), hcheck, hway⟩

/-! ### The path of a name in a directory -/

section Join

variable {directory : String}

/-- A name behind the empty text is left as it is. -/
theorem empty_join (name : String) : join "" name = name := by
  simp [join]

/-- A name is put behind its directory, and a slash between them where there is none. -/
theorem join_cases (h : '/' ∉ name.toList) (directory : String) :
    (directory = "" ∧ join directory name = name) ∨
      (∃ front, directory = front ++ "/" ∧ join directory name = front ++ "/" ++ name) ∨
      join directory name = directory ++ "/" ++ name := by
  have hrelative : ¬ name.toList.head? = some '/' := fun hslash => h (List.mem_of_head? hslash)
  rw [join, if_neg hrelative]
  by_cases hempty : directory = ""
  · exact .inl ⟨hempty, by simp [hempty]⟩
  · by_cases hslash : directory.toList.getLast? = some '/'
    · right; left
      obtain ⟨cs, hcs⟩ := List.getLast?_eq_some_iff.1 hslash
      have hdirectory : directory = String.ofList cs ++ "/" := by
        rw [← String.toList_inj, hcs, String.toList_append, String.toList_ofList]
        rfl
      refine ⟨String.ofList cs, hdirectory, ?_⟩
      rw [if_pos (by simp [hslash]), hdirectory]
    · right; right
      rw [if_neg (by simp [hempty, hslash])]

/-- A path is no shorter than what it is put together from. -/
theorem utf8ByteSize_le_join (h : '/' ∉ name.toList) (directory : String) :
    directory.utf8ByteSize + name.utf8ByteSize ≤ (join directory name).utf8ByteSize := by
  rcases join_cases h directory with ⟨rfl, hjoin⟩ | ⟨front, rfl, hjoin⟩ | hjoin
  · rw [hjoin, String.utf8ByteSize_empty, Nat.zero_add]
  · rw [hjoin, String.utf8ByteSize_append (t := name)]
  · rw [hjoin, String.utf8ByteSize_append, String.utf8ByteSize_append]
    omega

/-- An empty part in front of another one makes no difference. -/
theorem resolveFrom_empty_cons (t : FileTree) (place : List String) (part : String)
    (rest : List String) :
    t.resolveFrom place ("" :: part :: rest) = t.resolveFrom place (part :: rest) := by
  rw [resolveFrom]
  split
  · rw [if_pos (.inl rfl)]
  · rename_i u hleaf hu
    rw [resolveFrom, hu]
    cases u with
    | directory entries => exact absurd rfl (hleaf entries)
    | file | device | locked => rfl
  · rename_i hnone
    rw [resolveFrom, hnone]

/-- **The path of a name leads there in two stages**: to the directory, and one part on. -/
theorem resolveFrom_parts_join (h : '/' ∉ name.toList) (t : FileTree) (place : List String)
    (directory : String) : t.resolveFrom place (parts (join directory name)) =
      (t.resolveFrom place (parts directory)).bind fun q => t.resolveFrom q [name] := by
  have hname := parts_of_no_slash h
  rw [← resolveFrom_append]
  rcases join_cases h directory with ⟨rfl, hjoin⟩ | ⟨front, rfl, hjoin⟩ | hjoin
  · rw [hjoin, hname]
    exact (resolveFrom_empty_cons t place name []).symm
  -- the directory ends with a slash, and behind it with an empty part
  · have hfront : parts (front ++ "/") = parts front ++ [""] := by
      rw [← String.append_empty (s := front ++ "/"), parts_append_slash]
      rfl
    rw [hjoin, parts_append_slash, hname, hfront, List.append_assoc, resolveFrom_append,
      resolveFrom_append]
    exact congrArg _ (funext fun q => (resolveFrom_empty_cons t q name []).symm)
  · rw [hjoin, parts_append_slash, hname]

/-- The path of a name in a directory that has a path is one, unless the name has a null character
or the path gets too long. -/
theorem checkPath_join (h : '/' ∉ name.toList) (hdirectory : directory ≠ "") :
    checkPath (join directory name) = .ok () ↔ checkPath directory = .ok () ∧
      '\x00' ∉ name.toList ∧ (join directory name).utf8ByteSize ≤ maxPathBytes := by
  have htext : ∃ between, '\x00' ∉ between.toList ∧
      join directory name = directory ++ between ++ name := by
    rcases join_cases h directory with ⟨hempty, -⟩ | ⟨front, rfl, hjoin⟩ | hjoin
    · exact absurd hempty hdirectory
    · exact ⟨"", List.not_mem_nil, hjoin.trans (by rw [String.append_empty])⟩
    · exact ⟨"/", by decide, hjoin⟩
  obtain ⟨between, hbetween, hjoin⟩ := htext
  have hsize : (join directory name).utf8ByteSize =
      directory.utf8ByteSize + between.utf8ByteSize + name.utf8ByteSize := by
    rw [hjoin, String.utf8ByteSize_append, String.utf8ByteSize_append]
  have hnonempty : join directory name ≠ "" := by
    rw [hjoin]
    simp [hdirectory]
  have hnull : '\x00' ∉ (join directory name).toList ↔
      '\x00' ∉ directory.toList ∧ '\x00' ∉ name.toList := by
    rw [hjoin]
    simp [hbetween]
  rw [checkPath_eq_ok_iff, checkPath_eq_ok_iff, hnull]
  constructor
  · rintro ⟨⟨hdirnull, hnamenull⟩, -, hfits⟩
    exact ⟨⟨hdirnull, hdirectory, by omega⟩, hnamenull, hfits⟩
  · rintro ⟨⟨hdirnull, -, -⟩, hnamenull, hfits⟩
    exact ⟨⟨hdirnull, hnamenull⟩, hnonempty, hfits⟩

/-- **Where the path of a name in a directory leads.** -/
theorem resolve_join_eq_ok (h : '/' ∉ name.toList) (hdirectory : directory ≠ "") :
    t.resolve (join directory name) = .ok p ↔
      ∃ q, t.resolve directory = .ok q ∧ t.resolveFrom q [name] = .ok p ∧
        '\x00' ∉ name.toList ∧ (join directory name).utf8ByteSize ≤ maxPathBytes := by
  rw [resolve_eq_ok, checkPath_join h hdirectory, resolveFrom_parts_join h]
  constructor
  · rintro ⟨⟨hcheck, hnull, hfits⟩, hway⟩
    obtain ⟨q, hq, hname⟩ := Except.bind_eq_ok.1 hway
    exact ⟨q, resolve_eq_ok.2 ⟨hcheck, hq⟩, hname, hnull, hfits⟩
  · rintro ⟨q, hdir, hname, hnull, hfits⟩
    obtain ⟨hcheck, hq⟩ := resolve_eq_ok.1 hdir
    exact ⟨⟨hcheck, hnull, hfits⟩, Except.bind_eq_ok.2 ⟨q, hq, hname⟩⟩

end Join

/-! ### Entries -/

/-- A text that is the name of an entry: no special part of a path, of one part, and not too
long. -/
structure IsName (name : String) : Prop where
  ne_empty : name ≠ ""
  ne_here : name ≠ "."
  ne_up : name ≠ ".."
  no_slash : '/' ∉ name.toList
  no_null : '\x00' ∉ name.toList
  fits : name.utf8ByteSize ≤ maxNameBytes

instance (name : String) : Decidable (IsName name) :=
  decidable_of_iff (name ≠ "" ∧ name ≠ "." ∧ name ≠ ".." ∧ '/' ∉ name.toList ∧
      '\x00' ∉ name.toList ∧ name.utf8ByteSize ≤ maxNameBytes)
    ⟨fun ⟨hempty, hhere, hup, hslash, hnull, hfits⟩ => ⟨hempty, hhere, hup, hslash, hnull, hfits⟩,
      fun h => ⟨h.ne_empty, h.ne_here, h.ne_up, h.no_slash, h.no_null, h.fits⟩⟩

/-- The entries of every directory have names, and no two of a directory have the same one. -/
def WellFormed (t : FileTree) : Prop :=
  ∀ place entries, t.get? place = some (.directory entries) →
    (entries.map (·.1)).Nodup ∧ ∀ e ∈ entries, IsName e.1

/-- Something stands under a name directly in the directory of a path. -/
def HasEntry (t : FileTree) (path name : String) (value : FileTree) : Prop :=
  ∃ place entries, t.resolve path = .ok place ∧ t.get? place = some (.directory entries) ∧
    (name, value) ∈ entries

/-- Anything but a directory. -/
def IsLeaf (t : FileTree) : Prop := ∀ entries, t ≠ .directory entries

/-- What gives bytes is no directory. -/
theorem isLeaf_of_opened (h : t.opened = .ok contents) : t.IsLeaf := by
  rintro entries rfl
  cases h

theorem isLeaf_of_isRegular (h : t.isRegular = true) : t.IsLeaf := by
  rintro entries rfl
  cases h

theorem mem_of_child? {value : FileTree} (h : (directory entries).child? name = some value) :
    (name, value) ∈ entries := by
  obtain ⟨⟨found, v⟩, hfound, rfl⟩ := Option.map_eq_some_iff.1 h
  obtain rfl : found = name := by simpa using List.find?_some hfound
  exact List.mem_of_find?_eq_some hfound

/-- Where names differ, every entry is found by its name. -/
theorem child?_of_mem {value : FileTree} (hnodup : (entries.map (·.1)).Nodup)
    (h : (name, value) ∈ entries) : (directory entries).child? name = some value := by
  induction entries with
  | nil => cases h
  | cons e rest ih =>
    rw [List.map_cons, List.nodup_cons] at hnodup
    rcases List.mem_cons.1 h with rfl | hrest
    · simp [child?]
    · have hne : e.1 ≠ name := by
        rintro rfl
        exact hnodup.1 (List.mem_map.2 ⟨_, hrest, rfl⟩)
      have hchild := ih hnodup.2 hrest
      rw [child?] at hchild ⊢
      rwa [List.find?_cons_of_neg (by simpa using hne)]

theorem get?_concat (t : FileTree) (place : List String) (name : String) :
    t.get? (place ++ [name]) = (t.get? place).bind fun u => u.child? name := by
  rw [get?_append]
  congr 1
  funext u
  rw [get?]
  cases u.child? name with
  | none => rfl
  | some child => rfl

/-- Above a directory is a directory. -/
theorem get?_dropLast (h : t.get? place = some (.directory entries)) :
    ∃ above, t.get? place.dropLast = some (.directory above) := by
  rcases List.eq_nil_or_concat place with rfl | ⟨front, last, rfl⟩
  · exact ⟨entries, h⟩
  · rw [List.concat_eq_append] at h ⊢
    rw [get?_concat] at h
    obtain ⟨u, hu, hchild⟩ := Option.bind_eq_some_iff.1 h
    rw [List.dropLast_concat]
    cases u with
    | file | device | locked => cases hchild
    | directory above => exact ⟨above, hu⟩

/-- **A single part that leads to no directory is a name**: the empty part, `.` and `..` lead to
directories. -/
theorem mem_of_resolveFrom_singleton (hway : t.resolveFrom place [name] = .ok p)
    (hu : t.get? p = some u) (hleaf : u.IsLeaf) :
    ∃ entries, t.get? place = some (.directory entries) ∧ (name, u) ∈ entries := by
  rw [resolveFrom] at hway
  split at hway
  · rename_i entries hentries
    refine ⟨entries, hentries, ?_⟩
    split at hway
    -- the part stays where it is, goes up, or goes on to an entry
    · obtain rfl := Except.ok.inj hway
      exact absurd (Option.some.inj (hu.symm.trans hentries)) (hleaf _)
    · split at hway
      · obtain rfl := Except.ok.inj hway
        obtain ⟨above, habove⟩ := get?_dropLast hentries
        exact absurd (Option.some.inj (hu.symm.trans habove)) (hleaf _)
      · obtain ⟨-, hway⟩ := Except.ite_error_eq_ok.1 hway
        split at hway
        · obtain rfl := Except.ok.inj hway
          rw [get?_concat, hentries] at hu
          exact mem_of_child? hu
        · cases hway
  · cases hway
  · cases hway

/-- The name of an entry leads to it. -/
theorem IsName.resolveFrom {value : FileTree} (h : IsName name)
    (hentries : t.get? place = some (.directory entries))
    (hchild : (directory entries).child? name = some value) :
    t.resolveFrom place [name] = .ok (place ++ [name]) ∧ t.get? (place ++ [name]) = some value := by
  have hvalue : t.get? (place ++ [name]) = some value := by
    rw [get?_concat, hentries]
    exact hchild
  refine ⟨?_, hvalue⟩
  rw [FileTree.resolveFrom, hentries]
  dsimp only
  rw [if_neg (by simp [h.ne_empty, h.ne_here]), if_neg h.ne_up,
    if_neg (by simpa [isTooLong] using h.fits), hvalue, if_pos (Option.isSome_some),
    FileTree.resolveFrom]

/-! ### Entries of a directory -/

section Entries

variable {directory : String}

/-- **What a name leads to is an entry of the directory**, if it is none itself. -/
theorem hasEntry_of_resolve_join (hname : '/' ∉ name.toList) (hdirectory : directory ≠ "")
    (hp : t.resolve (join directory name) = .ok p) (hu : t.get? p = some u) (hleaf : u.IsLeaf) :
    t.HasEntry directory name u := by
  obtain ⟨place, hplace, hway, -, -⟩ := (resolve_join_eq_ok hname hdirectory).1 hp
  obtain ⟨entries, hentries, hmem⟩ := mem_of_resolveFrom_singleton hway hu hleaf
  exact ⟨place, entries, hplace, hentries, hmem⟩

/-- What a name alone leads to is an entry of the directory that paths start from. -/
theorem hasEntry_of_resolve (hname : '/' ∉ name.toList) (hp : t.resolve name = .ok p)
    (hu : t.get? p = some u) (hleaf : u.IsLeaf) : t.HasEntry "." name u := by
  obtain ⟨-, hway⟩ := resolve_eq_ok.1 hp
  rw [parts_of_no_slash hname] at hway
  obtain ⟨entries, hentries, hmem⟩ := mem_of_resolveFrom_singleton hway hu hleaf
  have hhere : t.resolveFrom [] ["."] = .ok [] := by
    rw [resolveFrom, hentries]
    rfl
  exact ⟨[], entries, resolve_eq_ok.2 ⟨rfl, hhere⟩, hentries, hmem⟩

/-- The empty text leads to no directory. -/
theorem HasEntry.directory_ne (h : t.HasEntry directory name u) : directory ≠ "" := by
  obtain ⟨place, -, hplace, -, -⟩ := h
  rintro rfl
  cases hplace

/-- **The name of an entry leads to it**, if its path is not too long. -/
theorem WellFormed.resolve_join (h : t.WellFormed) (hentry : t.HasEntry directory name u)
    (hfits : (join directory name).utf8ByteSize ≤ maxPathBytes) :
    ∃ p, t.resolve (join directory name) = .ok p ∧ t.get? p = some u := by
  have hdirectory := hentry.directory_ne
  obtain ⟨place, entries, hplace, hentries, hmem⟩ := hentry
  obtain ⟨hnodup, hnames⟩ := h place entries hentries
  have hname : IsName name := hnames _ hmem
  obtain ⟨hway, hvalue⟩ := hname.resolveFrom hentries (child?_of_mem hnodup hmem)
  exact ⟨place ++ [name], (resolve_join_eq_ok hname.no_slash hdirectory).2
    ⟨place, hplace, hway, hname.no_null, hfits⟩, hvalue⟩

end Entries

/-! ### Looking at a directory -/

theorem isFile_iff : t.isFile path = true ↔
    ∃ p u, t.resolve path = .ok p ∧ t.get? p = some u ∧ u.isRegular = true := by
  rw [isFile]
  cases hp : t.resolve path with
  | error reason => simp
  | ok p =>
    cases hu : t.get? p with
    | none => simp [hu]
    | some u => simp [hu]

theorem names_of_resolve (hplace : t.resolve path = .ok place)
    (hentries : t.get? place = some (.directory entries)) :
    t.names path = entries.map (·.1) := by
  rw [names, hplace]
  dsimp only
  rw [hentries]

/-- A path leads to no names, or to a directory and the names of its entries. -/
theorem names_cases (t : FileTree) (path : String) : t.names path = [] ∨
    ∃ place entries, t.resolve path = .ok place ∧ t.get? place = some (.directory entries) ∧
      t.names path = entries.map (·.1) := by
  cases hplace : t.resolve path with
  | error reason => exact .inl (by rw [names, hplace])
  | ok place =>
    by_cases hdirectory : ∃ entries, t.get? place = some (.directory entries)
    · obtain ⟨entries, hentries⟩ := hdirectory
      exact .inr ⟨place, entries, rfl, hentries, names_of_resolve hplace hentries⟩
    · left
      rw [names, hplace]
      dsimp only
      split
      · rename_i entries hentries
        exact absurd ⟨entries, hentries⟩ hdirectory
      · rfl

theorem names_of_isDirectory (h : t.isDirectory path = false) : t.names path = [] := by
  rcases t.names_cases path with hnone | ⟨place, entries, hplace, hentries, -⟩
  · exact hnone
  · rw [isDirectory, hplace] at h
    dsimp only at h
    rw [hentries] at h
    cases h

theorem resolve_of_mem_names (h : name ∈ t.names path) :
    ∃ place entries, t.resolve path = .ok place ∧ t.get? place = some (.directory entries) ∧
      name ∈ entries.map (·.1) := by
  rcases t.names_cases path with hnone | ⟨place, entries, hplace, hentries, hnames⟩
  · rw [hnone] at h
    cases h
  · exact ⟨place, entries, hplace, hentries, hnames ▸ h⟩

theorem HasEntry.mem_names (h : t.HasEntry path name u) : name ∈ t.names path := by
  obtain ⟨place, entries, hplace, hentries, hmem⟩ := h
  rw [names_of_resolve hplace hentries]
  exact List.mem_map.2 ⟨_, hmem, rfl⟩

theorem WellFormed.nodup_names (h : t.WellFormed) (path : String) : (t.names path).Nodup := by
  rcases t.names_cases path with hnone | ⟨place, entries, -, hentries, hnames⟩
  · rw [hnone]
    exact List.nodup_nil
  · rw [hnames]
    exact (h place entries hentries).1

theorem WellFormed.isName_of_mem_names (h : t.WellFormed) (hmem : name ∈ t.names path) :
    IsName name := by
  obtain ⟨place, entries, -, hentries, hname⟩ := resolve_of_mem_names hmem
  obtain ⟨e, he, rfl⟩ := List.mem_map.1 hname
  exact (h place entries hentries).2 e he

/-! ### Well-formed trees -/

theorem WellFormed.of_get? (h : t.WellFormed) (hu : t.get? place = some u) : u.WellFormed := by
  intro p entries hentries
  refine h (place ++ p) entries ?_
  rw [get?_append, hu]
  exact hentries

/-- What is no directory has no entries. -/
theorem IsLeaf.wellFormed (h : t.IsLeaf) : t.WellFormed := by
  intro place entries hentries
  cases place with
  | nil => exact absurd (Option.some.inj hentries) (h entries)
  | cons name rest =>
    cases t with
    | file | device | locked => cases hentries
    | directory below => exact absurd rfl (h below)

/-- A directory is well-formed when its entries have different names and well-formed trees. -/
theorem wellFormed_directory : (directory entries).WellFormed ↔
    (entries.map (·.1)).Nodup ∧ (∀ e ∈ entries, IsName e.1) ∧ ∀ e ∈ entries, e.2.WellFormed := by
  constructor
  · intro h
    obtain ⟨hnodup, hnames⟩ := h [] entries rfl
    refine ⟨hnodup, hnames, fun e he => ?_⟩
    have hchild : (directory entries).get? ([] ++ [e.1]) = some e.2 := by
      rw [get?_concat]
      exact child?_of_mem hnodup he
    exact h.of_get? hchild
  · rintro ⟨hnodup, hnames, htrees⟩ place below hbelow
    cases place with
    | nil =>
      obtain rfl : entries = below := directory.inj (Option.some.inj hbelow)
      exact ⟨hnodup, hnames⟩
    | cons name rest =>
      obtain ⟨child, hchild, hrest⟩ := Option.bind_eq_some_iff.1 hbelow
      exact htrees _ (mem_of_child? hchild) rest below hrest

end FileTree

end Chip8

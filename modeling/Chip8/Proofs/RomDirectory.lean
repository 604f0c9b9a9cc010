import Chip8.Proofs.FilePath
import Chip8.Proofs.Text.Sorted
import Chip8.RomDirectory

/-!
# What a ROM directory lists and loads

A ROM directory lists the regular files that stand directly in it and whose names end like those of
programs, and loads by a name what stands there under it and nothing else. The guard in front of
loading only refuses texts with slashes. The empty text, `.` and `..` pass it, but what they lead to
is a directory, so there is nothing to read; and every other text without slashes is the name of an
entry or leads nowhere.

Listing and loading ask different questions, and they may disagree. Listing asks whether an entry is
a regular file, but not whether it may be opened; loading opens it and does not ask what it is, so a
pipe or a device is read as well. Listing looks at the directory and then at each entry by its path,
and a directory may have a path of nearly the greatest length: its files are passed over then, as
their paths are too long. The empty text is no path either, so nothing is listed there; a name behind
it is a path, however, and is loaded from the directory that paths start from.

## Main definitions

* `RomDirectory.IsProgramName` — the names that end like those of programs
* `RomDirectory.home` — the directory that names are loaded from
* `RomDirectory.Holds` — what can be read directly in a directory

## Main results

* `RomDirectory.holds_of_load` — what is loaded stands in the directory
* `RomDirectory.load_of_slash` — texts with slashes are refused, whatever the files are
* `RomDirectory.list_load_exact` — listing and loading of well-formed trees
-/

namespace Chip8

open FileTree

namespace RomDirectory

variable {d : RomDirectory} {t : FileTree} {name : String} {contents : Bytes}

/-! ### Names of programs -/

/-- A name that ends like that of a program when it is put in lower case. The letters of the endings
are those of the basic alphabet. -/
def IsProgramName (name : String) : Prop :=
  ".ch8".toList <:+ name.toLower.toList ∨ ".c8".toList <:+ name.toLower.toList

theorem lowerLetter_eq (c : Char) : lowerLetter c = c.toLower := by
  by_cases hupper : 'A' ≤ c ∧ c ≤ 'Z'
  · have hvalues : c.val ≥ 'A'.val ∧ c.val ≤ 'Z'.val := hupper
    have hlast : c.val.toNat ≤ 90 := UInt32.le_iff_toNat_le.1 hvalues.2
    have hlower : c.toLower.toNat = c.toNat + 32 := by
      refine (congrArg Char.toNat (dif_pos hvalues)).trans ?_
      show (c.val.toNat + 32) % UInt32.size = c.val.toNat + 32
      exact Nat.mod_eq_of_lt (by simp only [UInt32.size]; omega)
    rw [lowerLetter, if_pos hupper, ← hlower, Char.ofNat_toNat]
  · have hvalues : ¬ (c.val ≥ 'A'.val ∧ c.val ≤ 'Z'.val) := hupper
    have hsame : c.toLower = c := dif_neg hvalues
    rw [lowerLetter, if_neg hupper, hsame]

theorem isRomName_iff : isRomName name = true ↔ IsProgramName name := by
  have hlower : name.toList.map lowerLetter = name.toLower.toList := by
    rw [funext lowerLetter_eq]
    exact String.toList_map.symm
  rw [isRomName, hlower, Bool.or_eq_true, List.isSuffixOf_iff_suffix, List.isSuffixOf_iff_suffix,
    IsProgramName]

/-! ### Loading -/

/-- The directory that names are loaded from. Without a path it is the one that paths start from. -/
def home (d : RomDirectory) : String := if d.path = "" then "." else d.path

/-- Texts with slashes are refused, whatever the files are. -/
theorem load_of_slash (h : '/' ∈ name.toList) (d : RomDirectory) (t : FileTree) :
    d.load t name = .error (.romName name) :=
  if_pos fun hbase => baseName_eq_self_iff.1 hbase h

theorem load_eq_ok : d.load t name = .ok contents ↔
    '/' ∉ name.toList ∧ t.read (join d.path name) = .ok contents := by
  rw [load, Except.ite_error_eq_ok, not_not, baseName_eq_self_iff, Except.mapError_eq_ok]

/-- A file, a pipe or a device stands under a name directly in a directory and gives these bytes. -/
def Holds (t : FileTree) (directory name : String) (contents : Bytes) : Prop :=
  t.HasEntry directory name (.file contents) ∨ t.HasEntry directory name (.device contents)

theorem holds_of_hasEntry {directory : String} {u : FileTree} (h : t.HasEntry directory name u)
    (hopened : u.opened = .ok contents) : Holds t directory name contents := by
  cases u with
  | file =>
    obtain rfl := Except.ok.inj hopened
    exact .inl h
  | device =>
    obtain rfl := Except.ok.inj hopened
    exact .inr h
  | locked => cases hopened
  | directory => cases hopened

/-- **What is loaded stands in the directory**, by whatever name it is loaded. -/
theorem holds_of_load (h : d.load t name = .ok contents) : Holds t d.home name contents := by
  obtain ⟨hname, hread⟩ := load_eq_ok.1 h
  obtain ⟨p, u, hp, hu, hopened⟩ := read_eq_ok.1 hread
  have hleaf : u.IsLeaf := isLeaf_of_opened hopened
  rw [home]
  split
  · rename_i hempty
    rw [hempty, empty_join] at hp
    exact holds_of_hasEntry (hasEntry_of_resolve hname hp hu hleaf) hopened
  · rename_i hpath
    exact holds_of_hasEntry (hasEntry_of_resolve_join hname hpath hp hu hleaf) hopened

/-- What is loaded is loaded by the name of an entry. -/
theorem isName_of_load (h : t.WellFormed) (hload : d.load t name = .ok contents) :
    IsName name := by
  have hname {u : FileTree} (hentry : t.HasEntry d.home name u) : IsName name := by
    obtain ⟨place, entries, -, hentries, hmem⟩ := hentry
    exact (h place entries hentries).2 _ hmem
  rcases holds_of_load hload with hfile | hdevice
  · exact hname hfile
  · exact hname hdevice

/-! ### Listing -/

theorem mem_list : name ∈ d.list t ↔ name ∈ t.names d.path ∧
    t.isFile (join d.path name) = true ∧ IsProgramName name := by
  rw [list, List.mem_mergeSort, List.mem_filter, Bool.and_eq_true, isRomName_iff]

/-- The path of a name that is listed leads to the entry of this name. -/
theorem hasEntry_of_mem_list (h : t.WellFormed) (hname : name ∈ d.list t) :
    ∃ p u, t.resolve (join d.path name) = .ok p ∧ t.get? p = some u ∧ u.isRegular = true ∧
      t.HasEntry d.path name u := by
  obtain ⟨hmem, hfile, -⟩ := mem_list.1 hname
  obtain ⟨p, u, hp, hu, hregular⟩ := isFile_iff.1 hfile
  have hpath : d.path ≠ "" := by
    obtain ⟨place, -, hplace, -, -⟩ := resolve_of_mem_names hmem
    intro hempty
    rw [hempty] at hplace
    cases hplace
  exact ⟨p, u, hp, hu, hregular, hasEntry_of_resolve_join (h.isName_of_mem_names hmem).no_slash
    hpath hp hu (isLeaf_of_isRegular hregular)⟩

/-- **A name that is listed is loaded**, unless its file may not be opened. -/
theorem load_of_mem_list (h : t.WellFormed) (hname : name ∈ d.list t) :
    (∃ contents, t.HasEntry d.path name (.file contents) ∧ d.load t name = .ok contents) ∨
      (t.HasEntry d.path name (.locked true) ∧
        d.load t name = .error (.file .notPermitted)) := by
  have hslash := (h.isName_of_mem_names (mem_list.1 hname).1).no_slash
  obtain ⟨p, u, hp, hu, hregular, hentry⟩ := hasEntry_of_mem_list h hname
  have hload : d.load t name = u.opened.mapError .file := by
    rw [load, if_neg (not_not.2 (baseName_eq_self_iff.2 hslash)), read_of_get? hp hu]
  cases u with
  | file contents => exact .inl ⟨contents, hentry, hload⟩
  | locked regular =>
    obtain rfl : regular = true := hregular
    exact .inr ⟨hentry, hload⟩
  | device => cases hregular
  | directory => cases hregular

/-- **What is listed**: the programs among the regular files of the directory that have paths. -/
theorem mem_list_iff (h : t.WellFormed) : name ∈ d.list t ↔
    IsProgramName name ∧ (∃ u, t.HasEntry d.path name u ∧ u.isRegular = true) ∧
      (join d.path name).utf8ByteSize ≤ maxPathBytes := by
  constructor
  · intro hname
    obtain ⟨p, u, hp, -, hregular, hentry⟩ := hasEntry_of_mem_list h hname
    obtain ⟨-, -, hfits⟩ := checkPath_eq_ok_iff.1 (resolve_eq_ok.1 hp).1
    exact ⟨(mem_list.1 hname).2.2, ⟨u, hentry, hregular⟩, hfits⟩
  · rintro ⟨hprogram, ⟨u, hentry, hregular⟩, hfits⟩
    obtain ⟨p, hp, hu⟩ := h.resolve_join hentry hfits
    exact mem_list.2 ⟨hentry.mem_names, isFile_iff.2 ⟨p, u, hp, hu, hregular⟩, hprogram⟩

theorem pairwise_list (h : t.WellFormed) (d : RomDirectory) : (d.list t).Pairwise (· < ·) :=
  Text.pairwise_lt_mergeSort ((h.nodup_names d.path).filter _)

/-- **Listing and loading.** The list has, in increasing order and once each, the names of the
regular files that stand directly in the directory, end like those of programs and have paths that
are not too long. It is empty if there is no directory. Every name of it is loaded, with the contents
of that file, unless the file may not be opened, which is then the reason of the refusal.

Whatever is loaded, by any name, is what a file, a pipe or a device gives that stands directly in the
directory under that name, or if the directory has no path, in the one that paths start from. So
where there is a path, nothing outside of the directory is read. A name with a slash is refused
without a look at the files, and the empty text, `.` and `..` load nothing. -/
theorem list_load_exact (h : t.WellFormed) (d : RomDirectory) :
    (d.list t).Pairwise (· < ·) ∧
      (∀ name, name ∈ d.list t ↔ IsProgramName name ∧
        (∃ u, t.HasEntry d.path name u ∧ u.isRegular = true) ∧
        (join d.path name).utf8ByteSize ≤ maxPathBytes) ∧
      (t.isDirectory d.path = false → d.list t = []) ∧
      (∀ name ∈ d.list t,
        (∃ contents, t.HasEntry d.path name (.file contents) ∧ d.load t name = .ok contents) ∨
          (t.HasEntry d.path name (.locked true) ∧
            d.load t name = .error (.file .notPermitted))) ∧
      (∀ name contents, d.load t name = .ok contents → Holds t d.home name contents) ∧
      (d.path ≠ "" →
        ∀ name contents, d.load t name = .ok contents → Holds t d.path name contents) ∧
      (∀ name, '/' ∈ name.toList → ∀ files, d.load files name = .error (.romName name)) ∧
      ∀ name, name = "" ∨ name = "." ∨ name = ".." → ∀ contents, d.load t name ≠ .ok contents := by
  refine ⟨pairwise_list h d, fun name => mem_list_iff h, fun hnone => ?_,
    fun name => load_of_mem_list h, fun name contents => holds_of_load,
    fun hpath name contents hload => ?_, fun name hslash files => load_of_slash hslash d files,
    fun name hspecial contents hload => ?_⟩
  · rw [list, names_of_isDirectory hnone, List.filter_nil, List.mergeSort_nil]
  · have hhome : d.home = d.path := if_neg hpath
    rw [← hhome]
    exact holds_of_load hload
  · have hname := isName_of_load h hload
    rcases hspecial with rfl | rfl | rfl
    · exact hname.ne_empty rfl
    · exact hname.ne_here rfl
    · exact hname.ne_up rfl

/-- A directory of programs next to other things, in a tree that has a program elsewhere. One of the
programs may not be opened, and a pipe has the name of a program. -/
def shelf : FileTree :=
  .directory [("stray.ch8", .file [0x01]),
    ("roms", .directory [("pong.ch8", .locked true), ("readme.txt", .file [0x6E]),
      ("TETRIS.C8", .file [0x12, 0x00]), ("pipe.ch8", .device [0x00, 0xE0]),
      ("nested.ch8", .directory [("inner.ch8", .file [0x02])])])]

theorem wellFormed_shelf : shelf.WellFormed := by
  have hfile (contents : Bytes) : (file contents).WellFormed :=
    IsLeaf.wellFormed fun entries => nofun
  have hnested : (directory [("inner.ch8", .file [0x02])]).WellFormed :=
    wellFormed_directory.2 ⟨by decide, by decide, by simp [hfile]⟩
  have hlocked : (locked true).WellFormed := IsLeaf.wellFormed fun entries => nofun
  have hpipe : (device [0x00, 0xE0]).WellFormed := IsLeaf.wellFormed fun entries => nofun
  have hroms : (directory [("pong.ch8", .locked true), ("readme.txt", .file [0x6E]),
      ("TETRIS.C8", .file [0x12, 0x00]), ("pipe.ch8", .device [0x00, 0xE0]),
      ("nested.ch8", .directory [("inner.ch8", .file [0x02])])]).WellFormed :=
    wellFormed_directory.2 ⟨by decide, by decide, by simp [hfile, hnested, hlocked, hpipe]⟩
  exact wellFormed_directory.2 ⟨by decide, by decide, by simp [hfile, hroms]⟩

theorem list_load_exact_shelf :
    shelf.WellFormed ∧
      "TETRIS.C8" ∈ (RomDirectory.mk "roms").list shelf ∧
      "pong.ch8" ∈ (RomDirectory.mk "roms").list shelf ∧
      "readme.txt" ∉ (RomDirectory.mk "roms").list shelf ∧
      (RomDirectory.mk "roms/pong.ch8").list shelf = [] ∧
      (RomDirectory.mk "roms").load shelf "TETRIS.C8" = .ok [0x12, 0x00] ∧
      (∀ contents, (RomDirectory.mk "roms").load shelf ".." ≠ .ok contents) ∧
      (RomDirectory.mk "roms").load shelf "../stray.ch8" = .error (.romName "../stray.ch8") := by
  have hplace : shelf.resolve "roms" = .ok ["roms"] := by decide
  have htetris : shelf.HasEntry "roms" "TETRIS.C8" (.file [0x12, 0x00]) :=
    ⟨["roms"], _, hplace, rfl, by simp⟩
  have hpong : shelf.HasEntry "roms" "pong.ch8" (.locked true) :=
    ⟨["roms"], _, hplace, rfl, by simp⟩
  obtain ⟨-, hlist, -, -, -, -, hslash, hspecial⟩ :=
    list_load_exact wellFormed_shelf (RomDirectory.mk "roms")
  refine ⟨wellFormed_shelf, (hlist _).2 ⟨isRomName_iff.1 (by decide), ⟨_, htetris, rfl⟩, by decide⟩,
    (hlist _).2 ⟨isRomName_iff.1 (by decide), ⟨_, hpong, rfl⟩, by decide⟩, fun hreadme => ?_, ?_,
    rfl, hspecial ".." (.inr (.inr rfl)), hslash _ (by decide) shelf⟩
  · exact absurd (isRomName_iff.2 ((hlist _).1 hreadme).1) (by decide)
  · exact (list_load_exact wellFormed_shelf (RomDirectory.mk "roms/pong.ch8")).2.2.1 rfl

/-! ### Where listing and loading disagree -/

/-- So many steps that stay where they are. -/
def stepsHere : Nat → String
  | 0 => ""
  | n + 1 => "." ++ "/" ++ stepsHere n

theorem utf8ByteSize_stepsHere (n : Nat) : (stepsHere n).utf8ByteSize = 2 * n := by
  induction n with
  | zero => rfl
  | succ n ih =>
    rw [stepsHere, String.utf8ByteSize_append, ih, Nat.mul_succ, Nat.add_comm]
    rfl

/-- Up to the greatest length of a path, such a text is a path, and it leads to the directory that
paths start from. -/
theorem resolve_stepsHere (entries : List (String × FileTree)) {n : Nat}
    (hn : 2 * (n + 1) ≤ maxPathBytes) :
    (directory entries).resolve (stepsHere (n + 1)) = .ok [] := by
  have hway (n : Nat) : (directory entries).resolveFrom [] (parts (stepsHere n)) = .ok [] := by
    induction n with
    | zero => rfl
    | succ n ih =>
      rw [stepsHere, parts_append_slash]
      exact ih
  have hchars (n : Nat) : '\x00' ∉ (stepsHere n).toList := by
    induction n with
    | zero => exact List.not_mem_nil
    | succ n ih =>
      rw [stepsHere, String.toList_append, List.mem_append, not_or]
      exact ⟨by decide, ih⟩
  have hsize := utf8ByteSize_stepsHere (n + 1)
  refine resolve_eq_ok.2 ⟨checkPath_eq_ok_iff.2 ⟨hchars _, ?_, hsize.trans_le hn⟩, hway _⟩
  intro hempty
  rw [hempty] at hsize
  cases hsize

/-- A program that may be opened, one that may not, and a pipe. -/
def oddShelf : FileTree :=
  .directory [("pong.ch8", .file [0x00, 0xE0]), ("tetris.ch8", .locked true),
    ("pipe", .device [0x12, 0x00])]

/-- **Where listing and loading disagree.** A directory under a path of nearly the greatest length
has the file of a program that is not listed, since its path is too long. A file that may not be
opened is listed and cannot be loaded. A pipe is loaded, and it is no regular file. And the empty
text leads to no directory, while a name behind it is a path. -/
theorem list_load_gaps :
    oddShelf.WellFormed ∧
      (oddShelf.HasEntry (stepsHere 2047) "pong.ch8" (.file [0x00, 0xE0]) ∧
        IsProgramName "pong.ch8" ∧
        "pong.ch8" ∉ (RomDirectory.mk (stepsHere 2047)).list oddShelf) ∧
      ("tetris.ch8" ∈ (RomDirectory.mk ".").list oddShelf ∧
        (RomDirectory.mk ".").load oddShelf "tetris.ch8" = .error (.file .notPermitted)) ∧
      (oddShelf.isFile "./pipe" = false ∧
        (RomDirectory.mk ".").load oddShelf "pipe" = .ok [0x12, 0x00]) ∧
      oddShelf.isDirectory "" = false ∧
      (RomDirectory.mk "").load oddShelf "pong.ch8" = .ok [0x00, 0xE0] ∧
      ∀ u, ¬ oddShelf.HasEntry "" "pong.ch8" u := by
  have hleaves : ∀ e ∈ [("pong.ch8", file [0x00, 0xE0]), ("tetris.ch8", locked true),
      ("pipe", device [0x12, 0x00])], e.2.WellFormed := by
    intro e he
    refine IsLeaf.wellFormed fun entries hentries => ?_
    simp only [List.mem_cons, List.not_mem_nil, or_false] at he
    rcases he with rfl | rfl | rfl <;> cases hentries
  have hwell : oddShelf.WellFormed := wellFormed_directory.2 ⟨by decide, by decide, hleaves⟩
  have hplace : oddShelf.resolve (stepsHere 2047) = .ok [] := resolve_stepsHere _ (by decide)
  have htetris : oddShelf.HasEntry "." "tetris.ch8" (.locked true) :=
    ⟨[], _, by decide, rfl, by simp⟩
  refine ⟨hwell, ⟨⟨[], _, hplace, rfl, by simp⟩, isRomName_iff.1 (by decide), ?_⟩,
    ⟨(mem_list_iff hwell).2 ⟨isRomName_iff.1 (by decide), ⟨_, htetris, rfl⟩, by decide⟩, rfl⟩,
    ⟨rfl, rfl⟩, rfl, by decide, fun u hentry => hentry.directory_ne rfl⟩
  intro hmem
  have hfits : (join (stepsHere 2047) "pong.ch8").utf8ByteSize ≤ 4095 :=
    ((mem_list_iff hwell).1 hmem).2.2
  have hname : '/' ∉ "pong.ch8".toList := by decide
  have hsize : "pong.ch8".utf8ByteSize = 8 := rfl
  have hlong := utf8ByteSize_le_join hname (stepsHere 2047)
  rw [utf8ByteSize_stepsHere, hsize] at hlong
  omega

end RomDirectory

end Chip8

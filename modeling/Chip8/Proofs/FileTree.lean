import Chip8.FileTree
import Chip8.Proofs.Except
import Mathlib.Data.List.Infix

/-!
# Written files

A file that was written is read back, by its own path and by every other path that leads to the same
place, and what is read from another place is as before. Both rest on the place being written at an entry of
a directory: putting a file there changes nothing outside of it but the entries of the directories
on the way, which stay directories. So a path that led somewhere still leads there.

A path is written to by another rule than it is read by. Writing splits off the last name and takes
it as the entry to be made, while reading walks along all parts; and a path that ends with a slash
is refused by the one and may be accepted by the other. For a path that can be written to the two
agree.

## Main definitions

* `FileTree.Grows` — what led somewhere still does

## Main results

* `FileTree.get?_put_cases` — what stands at a place after something was put
* `FileTree.Grows.resolve` — paths keep their places
* `FileTree.writable_of_writePlace` — what it takes to write to a path
* `FileTree.read_put` — a written file is read back
* `FileTree.read_write_of_ne` — what is read from other places is as before
-/

namespace Chip8

namespace FileTree

variable {t u written value : FileTree} {entries : List (String × FileTree)} {name : String}
  {path other : String} {place way directory p : List String} {contents data : Bytes}

/-! ### Putting something into a tree -/

theorem child?_putEntry (name : String) (value : FileTree) (entries : List (String × FileTree))
    (n : String) : (FileTree.directory (putEntry name value entries)).child? n =
      if n = name then some value else (FileTree.directory entries).child? n := by
  induction entries with
  | nil => by_cases hn : n = name <;> simp [putEntry, child?, hn, eq_comm]
  | cons e rest ih =>
    obtain ⟨m, v⟩ := e
    simp only [child?] at ih
    by_cases hm : m = name
    · subst hm
      by_cases hn : n = m
      · simp [putEntry, child?, hn]
      · simp [putEntry, child?, hn, Ne.symm hn]
    · by_cases hmn : m = n
      · subst hmn
        simp [putEntry, child?, hm]
      · simp [putEntry, child?, hm, hmn, ih]

theorem get?_append (t : FileTree) (place p : List String) :
    t.get? (place ++ p) = (t.get? place).bind fun u => u.get? p := by
  induction place generalizing t with
  | nil => rfl
  | cons name rest ih =>
    rw [List.cons_append, get?, get?]
    cases t.child? name with
    | none => rfl
    | some child => exact ih child

theorem get?_put_self (t value : FileTree) (place : List String) :
    (t.put value place).get? place = some value := by
  induction place generalizing t with
  | nil => rfl
  | cons name rest ih =>
    show (FileTree.directory (putEntry name _ _)).get? (name :: rest) = some value
    rw [get?, child?_putEntry, if_pos rfl]
    exact ih _

/-- **What stands at a place after something was put** at an entry of a directory: the same as
before, or a directory as before, unless the place is the entry or below it. -/
theorem get?_put_cases (hdir : t.get? directory = some (.directory entries)) (name : String)
    (value : FileTree) (p : List String) :
    (t.put value (directory ++ [name])).get? p = t.get? p ∨
      (∃ before after, t.get? p = some (.directory before) ∧
        (t.put value (directory ++ [name])).get? p = some (.directory after)) ∨
      directory ++ [name] <+: p := by
  -- along the way to the directory: the place leaves it, or goes on with the same part
  induction directory generalizing t p with
  | nil =>
    obtain rfl : t = .directory entries := Option.some.inj hdir
    cases p with
    | nil => exact .inr (.inl ⟨_, _, rfl, rfl⟩)
    | cons n rest =>
      by_cases hn : n = name
      · subst hn
        exact .inr (.inr ⟨rest, rfl⟩)
      · left
        simp only [List.nil_append, put, get?, child?_putEntry, if_neg hn]
  | cons first below ih =>
    cases t with
    | file | device | locked => cases hdir
    | directory roots =>
      obtain ⟨child, hchild, hbelow⟩ := Option.bind_eq_some_iff.1 hdir
      cases p with
      | nil => exact .inr (.inl ⟨_, _, rfl, rfl⟩)
      | cons n rest =>
        by_cases hn : n = first
        · subst hn
          have hbefore : (FileTree.directory roots).get? (n :: rest) = child.get? rest := by
            rw [get?, hchild]
            rfl
          have hafter : ((FileTree.directory roots).put value (n :: below ++ [name])).get?
              (n :: rest) = (child.put value (below ++ [name])).get? rest := by
            rw [List.cons_append, put, get?, child?_putEntry, if_pos rfl, hchild]
            rfl
          rw [hbefore, hafter]
          rcases ih hbelow rest with hsame | hstays | ⟨tail, rfl⟩
          · exact .inl hsame
          · exact .inr (.inl hstays)
          · exact .inr (.inr ⟨tail, rfl⟩)
        · left
          simp only [List.cons_append, put, get?, child?_putEntry, if_neg hn]

/-- No directory stands at a place. -/
def NoDirectory (t : FileTree) (place : List String) : Prop :=
  ∀ entries, t.get? place ≠ some (.directory entries)

/-- Nothing stands below a place at which no directory stands. -/
theorem NoDirectory.eq_of_prefix (h : t.NoDirectory place) (hp : (t.get? p).isSome)
    (hunder : place <+: p) : p = place := by
  obtain ⟨tail, rfl⟩ := hunder
  cases tail with
  | nil => exact List.append_nil place
  | cons n rest =>
    rw [get?_append] at hp
    cases hplace : t.get? place with
    | none =>
      rw [hplace] at hp
      cases hp
    | some u =>
      cases u with
      | file | device | locked =>
        rw [hplace] at hp
        cases hp
      | directory entries => exact absurd hplace (h entries)

/-! ### Paths in a grown tree -/

/-- One tree has directories where another one has them, and something wherever the other one
has. -/
structure Grows (t u : FileTree) : Prop where
  directory : ∀ p entries, t.get? p = some (.directory entries) →
    ∃ after, u.get? p = some (.directory after)
  isSome : ∀ p, (t.get? p).isSome → (u.get? p).isSome

/-- A tree grows when something takes the place of a file, or of nothing. -/
theorem grows_put (hdir : t.get? directory = some (.directory entries))
    (hfree : t.NoDirectory (directory ++ [name])) (value : FileTree) :
    t.Grows (t.put value (directory ++ [name])) where
  directory p before hp := by
    rcases get?_put_cases hdir name value p with hsame | ⟨_, after, -, hafter⟩ | hunder
    · exact ⟨before, hsame.trans hp⟩
    · exact ⟨after, hafter⟩
    · obtain rfl := hfree.eq_of_prefix (by rw [hp]; rfl) hunder
      exact absurd hp (hfree before)
  isSome p hp := by
    rcases get?_put_cases hdir name value p with hsame | ⟨_, after, -, hafter⟩ | hunder
    · rw [hsame]
      exact hp
    · rw [hafter]
      rfl
    · obtain rfl := hfree.eq_of_prefix hp hunder
      rw [get?_put_self]
      rfl

/-- What can be opened at other places is as before. -/
theorem get?_put_of_ne (hdir : t.get? directory = some (.directory entries))
    (hfree : t.NoDirectory (directory ++ [name])) (value : FileTree)
    (hfound : t.get? p = some u) (hopened : u.opened = .ok contents)
    (hne : p ≠ directory ++ [name]) : (t.put value (directory ++ [name])).get? p = some u := by
  rcases get?_put_cases hdir name value p with hsame | ⟨before, _, hbefore, -⟩ | hunder
  · exact hsame.trans hfound
  · obtain rfl : u = .directory before := Option.some.inj (hfound.symm.trans hbefore)
    cases hopened
  · exact absurd (hfree.eq_of_prefix (by rw [hfound]; rfl) hunder) hne

theorem resolveFrom_append (t : FileTree) (place : List String) (way rest : List String) :
    t.resolveFrom place (way ++ rest) =
      (t.resolveFrom place way).bind fun reached => t.resolveFrom reached rest := by
  induction way generalizing place with
  | nil => rfl
  | cons part way ih =>
    rw [List.cons_append, resolveFrom, resolveFrom]
    split
    · split
      · exact ih place
      · split
        · exact ih place.dropLast
        · split
          · rfl
          · split
            · exact ih (place ++ [part])
            · rfl
    · rfl
    · rfl

/-- Ways keep their ends when a tree grows. -/
theorem Grows.resolveFrom (h : t.Grows u) (hway : t.resolveFrom p way = .ok place) :
    u.resolveFrom p way = .ok place := by
  induction way generalizing p with
  | nil => exact hway
  | cons part way ih =>
    rw [FileTree.resolveFrom] at hway ⊢
    split at hway
    · rename_i before hp
      obtain ⟨after, hafter⟩ := h.directory p before hp
      rw [hafter]
      dsimp only
      split at hway
      · rename_i hstay
        rw [if_pos hstay]
        exact ih hway
      · rename_i hstay
        rw [if_neg hstay]
        split at hway
        · rename_i hup
          rw [if_pos hup]
          exact ih hway
        · rename_i hup
          rw [if_neg hup]
          obtain ⟨hshort, hway⟩ := Except.ite_error_eq_ok.1 hway
          rw [if_neg hshort]
          split at hway
          · rename_i hthere
            rw [if_pos (h.isSome _ hthere)]
            exact ih hway
          · cases hway
    · cases hway
    · cases hway

/-- **Paths keep their places when a tree grows.** -/
theorem Grows.resolve (h : t.Grows u) (hpath : t.resolve path = .ok place) :
    u.resolve path = .ok place := by
  obtain ⟨checked, hcheck, hway⟩ := Except.bind_eq_ok.1 hpath
  exact Except.bind_eq_ok.2 ⟨checked, hcheck, h.resolveFrom hway⟩

/-! ### Paths that are written to -/

/-- A path that does not end with a slash is its way and its last name. -/
theorem parts_eq_of_splitLast (h : baseName path ≠ "") (hsplit : splitLast path = (way, name)) :
    parts path = way ++ [name] ∧ name ≠ "" := by
  rw [baseName] at h
  rcases List.eq_nil_or_concat (parts path) with hnil | ⟨front, last, hparts⟩
  · rw [hnil] at h
    exact absurd rfl h
  · rw [List.concat_eq_append] at hparts
    rw [hparts, List.getLast?_concat] at h
    have hlast : last ≠ "" := h
    rw [splitLast, hparts, List.reverse_concat',
      List.dropWhile_cons_of_neg (by simpa using hlast)] at hsplit
    obtain ⟨hway, hname⟩ := Prod.mk.inj hsplit
    obtain rfl : front = way := (List.reverse_reverse front).symm.trans hway
    obtain rfl : last = name := hname
    exact ⟨hparts, hlast⟩

/-- **What it takes to write to a path**: its place is an entry of a directory, and there is a file or
nothing. -/
structure Writable (t : FileTree) (path : String) (directory : List String) (name : String) :
    Prop where
  check : checkPath path = .ok ()
  resolve : ∃ way, parts path = way ++ [name] ∧ t.resolveFrom [] way = .ok directory
  entries : ∃ entries, t.get? directory = some (.directory entries)
  name_fits : name ≠ "" ∧ name ≠ "." ∧ name ≠ ".." ∧ isTooLong name = false
  free : ∀ found, t.get? (directory ++ [name]) = some found → ∃ contents, found = .file contents

theorem Writable.noDirectory (h : t.Writable path directory name) :
    t.NoDirectory (directory ++ [name]) := by
  intro entries hentries
  obtain ⟨contents, hfile⟩ := h.free _ hentries
  cases hfile

theorem writable_of_writePlace (h : t.writePlace path = .ok place) :
    ∃ directory name, place = directory ++ [name] ∧ t.Writable path directory name := by
  obtain ⟨checked, hcheck, h⟩ := Except.bind_eq_ok.1 h
  cases hsplit : splitLast path with
  | mk way name =>
    rw [hsplit] at h
    obtain ⟨directory, hway, h⟩ := Except.bind_eq_ok.1 h
    split at h
    · rename_i entries hentries
      obtain ⟨hspecial, h⟩ := Except.ite_error_eq_ok.1 h
      obtain ⟨hshort, h⟩ := Except.ite_error_eq_ok.1 h
      rw [not_or, not_or] at hspecial
      obtain ⟨hdot, hdots, hbase⟩ := hspecial
      obtain ⟨hparts, hname⟩ := parts_eq_of_splitLast hbase hsplit
      have hplace : directory ++ [name] = place ∧ ∀ found,
          t.get? (directory ++ [name]) = some found → ∃ contents, found = .file contents := by
        split at h
        · cases h
        · cases h
        · cases h
        · rename_i contents hfile
          exact ⟨Except.ok.inj h, fun found hfound =>
            ⟨contents, Option.some.inj (hfound.symm.trans hfile)⟩⟩
        · rename_i hnone
          exact ⟨Except.ok.inj h, fun found hfound => by cases hfound.symm.trans hnone⟩
      obtain ⟨rfl, hfree⟩ := hplace
      exact ⟨directory, name, rfl, {
        check := hcheck
        resolve := ⟨way, hparts, hway⟩
        entries := ⟨entries, hentries⟩
        name_fits := ⟨hname, hdot, hdots, by simpa using hshort⟩
        free := hfree }⟩
    · cases h
    · cases h

theorem Writable.grows (h : t.Writable path directory name) (value : FileTree) :
    t.Grows (t.put value (directory ++ [name])) := by
  obtain ⟨entries, hentries⟩ := h.entries
  exact grows_put hentries h.noDirectory value

/-- A path that can be written to leads to its place, if something is there. -/
theorem Writable.resolve_eq (h : t.Writable path directory name) :
    t.resolve path = if (t.get? (directory ++ [name])).isSome then .ok (directory ++ [name])
      else .error .notFound := by
  obtain ⟨entries, hentries⟩ := h.entries
  obtain ⟨way, hparts, hway⟩ := h.resolve
  obtain ⟨hname, hdot, hdots, hshort⟩ := h.name_fits
  have hcheck : t.resolve path = t.resolveFrom [] (parts path) := by
    rw [FileTree.resolve, h.check]
    rfl
  rw [hcheck, hparts, resolveFrom_append, hway]
  show t.resolveFrom directory [name] = _
  rw [resolveFrom, hentries]
  dsimp only
  rw [if_neg (by simp [hname, hdot]), if_neg hdots, if_neg (by simp [hshort]), resolveFrom]

/-- It can still be written to when a file was put there. -/
theorem Writable.put (h : t.Writable path directory name) (contents : Bytes) :
    (t.put (.file contents) (directory ++ [name])).Writable path directory name := by
  obtain ⟨entries, hentries⟩ := h.entries
  obtain ⟨way, hparts, hway⟩ := h.resolve
  have hgrows := h.grows (.file contents)
  refine { h with
    resolve := ⟨way, hparts, hgrows.resolveFrom hway⟩
    entries := hgrows.directory _ entries hentries
    free := fun found hfound => ⟨contents, ?_⟩ }
  rw [get?_put_self] at hfound
  exact (Option.some.inj hfound).symm

/-- A path that can be written to leads to no pipe and no device. -/
theorem Writable.isDevice_eq_false (h : t.Writable path directory name) :
    t.isDevice path = false := by
  rw [isDevice, h.resolve_eq]
  cases hfound : t.get? (directory ++ [name]) with
  | none => rfl
  | some found =>
    obtain ⟨contents, rfl⟩ := h.free found hfound
    simp [hfound]

/-! ### Reading after writing -/

/-- What is read at a path is what opening the entry there gives. -/
theorem read_of_get? {place : List String} {found : FileTree} (hplace : t.resolve path = .ok place)
    (hfound : t.get? place = some found) : t.read path = found.opened := by
  simp only [read, hplace, hfound, bind, Except.bind]

theorem read_eq_ok : t.read path = .ok contents ↔
    ∃ place found, t.resolve path = .ok place ∧ t.get? place = some found ∧
      found.opened = .ok contents := by
  rw [read, Except.bind_eq_ok]
  refine exists_congr fun place => ?_
  cases t.get? place with
  | none => simp
  | some found => simp

/-- **A file that was written is read back.** -/
theorem read_put (h : t.writePlace path = .ok place) (contents : Bytes) :
    (t.put (.file contents) place).read path = .ok contents := by
  obtain ⟨directory, name, rfl, hwritable⟩ := writable_of_writePlace h
  have hthere := get?_put_self t (.file contents) (directory ++ [name])
  refine read_eq_ok.2 ⟨_, _, ?_, hthere, rfl⟩
  rw [(hwritable.put contents).resolve_eq, hthere]
  rfl

/-- What is read is as before when another place is written. -/
theorem read_put_of_ne (hread : t.read path = .ok data) (hplace : t.writePlace other = .ok place)
    (hne : t.resolve path ≠ .ok place) (contents : Bytes) :
    (t.put (.file contents) place).read path = .ok data := by
  obtain ⟨found, u, hresolve, hfound, hopened⟩ := read_eq_ok.1 hread
  obtain ⟨directory, name, rfl, hwritable⟩ := writable_of_writePlace hplace
  obtain ⟨entries, hentries⟩ := hwritable.entries
  have hother : found ≠ directory ++ [name] := by
    rintro rfl
    exact hne hresolve
  exact read_eq_ok.2 ⟨found, u, (hwritable.grows _).resolve hresolve,
    get?_put_of_ne hentries hwritable.noDirectory _ hfound hopened hother, hopened⟩

/-- A write puts a file at its place, or it leaves the tree as it is. -/
theorem write_cases (h : t.write path contents = .ok written) :
    written = t ∨ ∃ place, t.writePlace path = .ok place ∧
      written = t.put (.file contents) place := by
  rw [write] at h
  split at h
  · exact .inl (Except.ok.inj h).symm
  · obtain ⟨place, hplace, rfl⟩ := Except.map_eq_ok.1 h
    exact .inr ⟨place, hplace, rfl⟩

theorem write_of_writePlace (h : t.writePlace path = .ok place) (contents : Bytes) :
    t.write path contents = .ok (t.put (.file contents) place) := by
  obtain ⟨directory, name, rfl, hwritable⟩ := writable_of_writePlace h
  rw [write, hwritable.isDevice_eq_false]
  exact Except.map_eq_ok.2 ⟨_, h, rfl⟩

/-- **What is read is as before when another place was written.** -/
theorem read_write_of_ne (hread : t.read path = .ok data)
    (hwrite : t.write other contents = .ok written)
    (hne : ∀ place, t.resolve path = .ok place → t.writePlace other ≠ .ok place) :
    written.read path = .ok data := by
  rcases write_cases hwrite with rfl | ⟨place, hplace, rfl⟩
  · exact hread
  · exact read_put_of_ne hread hplace (fun hresolve => hne place hresolve hplace) contents

end FileTree

end Chip8

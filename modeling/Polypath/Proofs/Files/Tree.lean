import Polypath.Files.Tree
import Polypath.Proofs.Outcome

/-!
# Writing a file

A name is written exactly when it leads to a place where no directory stands (`target_eq_ok_iff`), and then one entry of
the tree changes (`entry?_put`). A directory stays a directory, so every name that could be followed can be followed
still and leads to the same place (`directoryOf_of_keeps`). Hence what is written under a name is read back under it
(`read_of_write`), and every other file is read as before (`read_of_write_of_ne`).
-/

namespace Polypath.Files.Tree

open Outcome

variable {t u : Tree} {name : String} {place : Place} {content : List UInt8}

/-- The tree whose working directory holds the given files. -/
def ofFiles (files : List (String × List UInt8)) : Tree :=
  { empty with entries := files.map fun (name, content) => (empty.home.child name, .file content) }

/-! ## Entries -/

theorem lookup_filter_ne {place other : Place} (hne : other ≠ place) (entries : List (Place × Entry)) :
    (entries.filter fun entry => entry.1 ≠ place).lookup other = entries.lookup other := by
  induction entries with
  | nil => rfl
  | cons entry entries ih =>
    obtain ⟨q, e⟩ := entry
    by_cases hq : q = place
    · have hother : (other == q) = false := by rw [hq]; exact beq_eq_false_iff_ne.mpr hne
      rw [List.filter_cons_of_neg (by simpa using hq), ih, List.lookup_cons, hother]
    · rw [List.filter_cons_of_pos (by simpa using hq), List.lookup_cons, List.lookup_cons, ih]

/-- Putting an entry where no directory stands changes what stands there and nothing else. -/
theorem entry?_put (hfree : t.entry? place ≠ some .directory) (e : Entry) (q : Place) :
    entry? (t.put place e) q = if q = place then some e else t.entry? q := by
  have hlisted : place.leadsTo t.home = false := by
    rw [Bool.eq_false_iff]
    intro hleads
    exact hfree (if_pos hleads)
  unfold put entry?
  by_cases hq : q = place
  · simp [hq, hlisted]
  · have hother : (q == place) = false := beq_eq_false_iff_ne.mpr hq
    simp only [List.lookup_cons, hother, lookup_filter_ne hq, if_neg hq]

/-! ## Following a name -/

/-- Where one tree has a directory, the other has one too, and both have the same working directory. -/
structure Keeps (t u : Tree) : Prop where
  home_eq : u.home = t.home
  directory : ∀ q, t.entry? q = some .directory → u.entry? q = some .directory

/-- Following a part into a directory needs that directory and nothing else of the tree. -/
theorem enter_of_keeps (hk : Keeps t u) {dir next : Place} {part : String} (he : t.enter dir part = .ok next) :
    u.enter dir part = .ok next := by
  unfold enter at he ⊢
  by_cases hdot : part = "."
  · rwa [if_pos hdot] at he ⊢
  · rw [if_neg hdot] at he ⊢
    by_cases hdots : part = ".."
    · rwa [if_pos hdots] at he ⊢
    · rw [if_neg hdots, refuse_eq_ok_iff] at he ⊢
      obtain ⟨hlength, hentry⟩ := he
      refine ⟨hlength, ?_⟩
      split at hentry
      · cases hentry
      · cases hentry
      · next hd => rwa [hk.directory _ hd]

theorem enterAll_of_keeps (hk : Keeps t u) {dir last : Place} {parts : List String}
    (he : t.enterAll dir parts = .ok last) : u.enterAll dir parts = .ok last := by
  induction parts generalizing dir with
  | nil => exact he
  | cons part parts ih =>
    unfold enterAll at he ⊢
    split at he
    · next next hnext =>
      rw [enter_of_keeps hk hnext]
      exact ih he
    · cases he

/-- A name that leads into a directory still does if the directories are kept. -/
theorem directoryOf_of_keeps (hk : Keeps t u) {dir : Place} (hd : t.directoryOf name = .ok dir) :
    u.directoryOf name = .ok dir := by
  simp only [directoryOf, refuse_eq_ok_iff] at hd ⊢
  obtain ⟨hzero, hempty, hlong, henter⟩ := hd
  refine ⟨hzero, hempty, hlong, ?_⟩
  rw [start, hk.home_eq]
  exact enterAll_of_keeps hk henter

/-! ## Reading and writing -/

/-- A file is read exactly when its name can be followed to it. -/
theorem read_eq_ok_iff : t.read name = .ok content ↔
    ∃ dir part, t.directoryOf name = .ok dir ∧ lastName? name = some part ∧ part.utf8ByteSize ≤ maxPartLength ∧
      t.entry? (dir.child part) = some (.file content) ∧ endsInSlash name = false := by
  simp only [read, bind_eq_ok_iff]
  refine exists_congr fun dir => ?_
  cases lastName? name with
  | none => simp
  | some part =>
    simp only [throw_eq_error, error_bind, refuse_eq_ok_iff, Nat.not_lt, Option.some.injEq]
    cases hentry : t.entry? (dir.child part) with
    | none => simp [hentry]
    | some e =>
      cases e with
      | directory => simp [hentry]
      | file bytes => simp [hentry, refuse_eq_ok_iff, and_comm]

/-- A file is written exactly when its name can be followed to a place without a directory. -/
theorem target_eq_ok_iff : t.target name = .ok place ↔
    ∃ dir part, t.directoryOf name = .ok dir ∧ lastName? name = some part ∧ endsInSlash name = false ∧
      part.utf8ByteSize ≤ maxPartLength ∧ t.entry? (dir.child part) ≠ some .directory ∧ dir.child part = place := by
  simp only [target, bind_eq_ok_iff]
  refine exists_congr fun dir => ?_
  cases lastName? name with
  | none => simp
  | some part =>
    simp only [throw_eq_error, error_bind, refuse_eq_ok_iff, Nat.not_lt, Option.some.injEq, Bool.not_eq_true]
    cases hentry : t.entry? (dir.child part) with
    | none => simp [hentry]
    | some e =>
      cases e with
      | directory => simp [hentry]
      | file bytes => simp [hentry]

theorem write_eq_ok_iff : t.write name content = .ok u ↔
    ∃ place, t.target name = .ok place ∧ t.put place (.file content) = u := by
  simp only [write, bind_eq_ok_iff, pure_eq_ok, Except.ok.injEq]

/-- The name leads to a place where a file can be written. -/
def Writable (t : Tree) (name : String) : Prop := ∃ place, t.target name = .ok place

/-- Whether a file can be written does not depend on its content. -/
theorem Writable.write (hw : t.Writable name) (content : List UInt8) : ∃ u, t.write name content = .ok u := by
  obtain ⟨place, hplace⟩ := hw
  exact ⟨_, write_eq_ok_iff.mpr ⟨place, hplace, rfl⟩⟩

/-- A file is written at the place of its name and nowhere else. -/
theorem entry?_of_write (hw : t.write name content = .ok u) :
    ∃ place, t.target name = .ok place ∧ ∀ q, u.entry? q = if q = place then some (.file content) else t.entry? q := by
  obtain ⟨place, hplace, rfl⟩ := write_eq_ok_iff.mp hw
  obtain ⟨dir, part, -, -, -, -, hfree, rfl⟩ := target_eq_ok_iff.mp hplace
  exact ⟨_, hplace, entry?_put hfree _⟩

theorem home_of_write (hw : t.write name content = .ok u) : u.home = t.home := by
  obtain ⟨place, -, rfl⟩ := write_eq_ok_iff.mp hw
  rfl

/-- No directory makes room for a file. -/
theorem keeps_of_write (hw : t.write name content = .ok u) : Keeps t u := by
  obtain ⟨place, hplace, hentry⟩ := entry?_of_write hw
  obtain ⟨dir, part, -, -, -, -, hfree, rfl⟩ := target_eq_ok_iff.mp hplace
  refine ⟨home_of_write hw, ?_⟩
  intro q hq
  have hne : q ≠ dir.child part := by
    rintro rfl
    exact hfree hq
  rw [hentry, if_neg hne, hq]

/-- What is written under a name is read back under it. -/
theorem read_of_write (hw : t.write name content = .ok u) : u.read name = .ok content := by
  obtain ⟨place, hplace, hentry⟩ := entry?_of_write hw
  obtain ⟨dir, part, hdir, hpart, hslash, hlength, -, rfl⟩ := target_eq_ok_iff.mp hplace
  refine read_eq_ok_iff.mpr ⟨dir, part, directoryOf_of_keeps (keeps_of_write hw) hdir, hpart, hlength, ?_, hslash⟩
  rw [hentry, if_pos rfl]

/-- A file that is read under a name of another place is read as before. -/
theorem read_of_write_of_ne (hw : t.write name content = .ok u) {other : String} {held : List UInt8}
    (hread : t.read other = .ok held) (hne : t.target other ≠ t.target name) : u.read other = .ok held := by
  obtain ⟨place, hplace, hentry⟩ := entry?_of_write hw
  obtain ⟨dir, part, hdir, hpart, hlength, hfile, hslash⟩ := read_eq_ok_iff.mp hread
  have hother : t.target other = .ok (dir.child part) := by
    refine target_eq_ok_iff.mpr ⟨dir, part, hdir, hpart, hslash, hlength, ?_, rfl⟩
    rw [hfile]
    exact nofun
  have hapart : dir.child part ≠ place := by
    rintro rfl
    exact hne (hother.trans hplace.symm)
  refine read_eq_ok_iff.mpr ⟨dir, part, directoryOf_of_keeps (keeps_of_write hw) hdir, hpart, hlength, ?_, hslash⟩
  rw [hentry, if_neg hapart, hfile]

-- a name that begins with a slash is followed from the root, so it is another file's
example : ((ofFiles [("p", [1])]).write "/p" [2] >>= fun t => t.read "p") = .ok [1] := rfl

/-- One tree is the other with one file written, under the name and with the content. -/
structure Written (t : Tree) (name : String) (content : List UInt8) (u : Tree) : Prop where
  home_eq : u.home = t.home
  entries : ∃ place, t.target name = .ok place ∧
    ∀ q, u.entry? q = if q = place then some (.file content) else t.entry? q
  read : u.read name = .ok content
  others : ∀ other held, t.read other = .ok held → t.target other ≠ t.target name → u.read other = .ok held

theorem written_of_write (hw : t.write name content = .ok u) : t.Written name content u where
  home_eq := home_of_write hw
  entries := entry?_of_write hw
  read := read_of_write hw
  others _ _ hread hne := read_of_write_of_ne hw hread hne

end Polypath.Files.Tree

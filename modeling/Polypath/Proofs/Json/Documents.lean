import Polypath.Json.Document
import Polypath.Proofs.Json.Numbers
import Polypath.Proofs.Json.Strings

/-!
# Reading printed documents

The two ways to print a path differ only in the space between its parts. Whatever that space is, the document is read as
the path with every coordinate read again (`readPath_spacedPath`), so both printed forms are read as one path
(`readPath_compactPath`, `readPath_prettyPath`).
-/

namespace Polypath.Json

/-- The space in a printed path: before a key, behind a colon, before an element, and before the end of a list and of
the document. -/
structure Spacing where
  key : List Char
  colon : List Char
  element : List Char
  listEnd : List Char
  finish : List Char
  space_key : ∀ c ∈ key, isSpace c = true
  space_colon : ∀ c ∈ colon, isSpace c = true
  space_element : ∀ c ∈ element, isSpace c = true
  space_listEnd : ∀ c ∈ listEnd, isSpace c = true
  space_finish : ∀ c ∈ finish, isSpace c = true

namespace Spacing

/-- No space. -/
def none : Spacing where
  key := []
  colon := []
  element := []
  listEnd := []
  finish := []
  space_key := List.all_eq_true.mp rfl
  space_colon := List.all_eq_true.mp rfl
  space_element := List.all_eq_true.mp rfl
  space_listEnd := List.all_eq_true.mp rfl
  space_finish := List.all_eq_true.mp rfl

/-- Indented lines. -/
def lines : Spacing where
  key := newLine 1
  colon := [' ']
  element := newLine 2
  listEnd := newLine 1
  finish := newLine 0
  space_key := List.all_eq_true.mp rfl
  space_colon := List.all_eq_true.mp rfl
  space_element := List.all_eq_true.mp rfl
  space_listEnd := List.all_eq_true.mp rfl
  space_finish := List.all_eq_true.mp rfl

variable (sp : Spacing)

/-- The coordinates of a list behind the first one. -/
def furtherCoords (values : List Coord) : List Char := values.flatMap fun c => ',' :: (sp.element ++ coordText c)

/-- A list of coordinates with space. -/
def coords : List Coord → List Char
  | [] => ['[', ']']
  | c :: cs => '[' :: (sp.element ++ (coordText c ++ (sp.furtherCoords cs ++ (sp.listEnd ++ [']']))))

/-- A member of a path with space. -/
def member (name : List Char) (value : List Char) : List Char :=
  sp.key ++ ('"' :: (name ++ ('"' :: ':' :: (sp.colon ++ value))))

/-- A path with space. -/
def path (p : Path) : List Char :=
  '\x7b' :: (sp.member ['i', 'd'] (Nat.toDigits 10 p.id.toNat) ++ (',' :: (sp.member ['x'] (sp.coords p.x) ++
    (',' :: (sp.member ['y'] (sp.coords p.y) ++ (sp.finish ++ ['\x7d']))))))

theorem separated_eq (c : Coord) (cs : List Coord) :
    separated (',' :: sp.element) ((c :: cs).map coordText) = coordText c ++ sp.furtherCoords cs := by
  induction cs generalizing c with
  | nil => simp [separated, furtherCoords]
  | cons d ds ih =>
    rw [List.map_cons, List.map_cons, separated, ← List.map_cons, ih d]
    · simp [furtherCoords]
    · simp

theorem compactCoords_eq (values : List Coord) : compactCoords values = Spacing.none.coords values := by
  cases values with
  | nil => rfl
  | cons c cs =>
    have h : separated [','] ((c :: cs).map coordText) = _ := Spacing.none.separated_eq c cs
    rw [compactCoords, h]
    exact congrArg ('[' :: ·) (List.append_assoc _ _ _)

theorem prettyCoords_eq (values : List Coord) : prettyCoords values = Spacing.lines.coords values := by
  cases values with
  | nil => rfl
  | cons c cs =>
    have h : separated (',' :: newLine 2) ((c :: cs).map coordText) = _ := Spacing.lines.separated_eq c cs
    rw [prettyCoords, if_neg (by simp), h, coords]
    simp only [List.append_assoc, List.cons_append]
    rfl

theorem compactPath_eq (p : Path) : compactPath p = Spacing.none.path p := by
  have hid : "\x7b\"id\":".toList = ['\x7b', '"', 'i', 'd', '"', ':'] := rfl
  have hx : ",\"x\":".toList = [',', '"', 'x', '"', ':'] := rfl
  have hy : ",\"y\":".toList = [',', '"', 'y', '"', ':'] := rfl
  have hkey : Spacing.none.key = [] := rfl
  have hcolon : Spacing.none.colon = [] := rfl
  have hfinish : Spacing.none.finish = [] := rfl
  unfold compactPath
  rw [hid, hx, hy]
  simp only [compactCoords_eq, path, member, hkey, hcolon, hfinish, List.append_assoc, List.cons_append,
    List.nil_append]

theorem prettyPath_eq (p : Path) : prettyPath p = Spacing.lines.path p := by
  have hid : "\"id\": ".toList = ['"', 'i', 'd', '"', ':', ' '] := rfl
  have hx : "\"x\": ".toList = ['"', 'x', '"', ':', ' '] := rfl
  have hy : "\"y\": ".toList = ['"', 'y', '"', ':', ' '] := rfl
  unfold prettyPath
  rw [hid, hx, hy]
  simp only [prettyCoords_eq, path, member, List.append_assoc, List.cons_append, List.nil_append]
  rfl

end Spacing

/-! ## Lists -/

section Lists

variable {gap rest : List Char}

theorem endsNumber_of_isSpace {c : Char} (h : isSpace c = true) (r : List Char) : endsNumber (c :: r) = true := by
  simp only [isSpace, Bool.or_eq_true, decide_eq_true_eq] at h
  obtain ((rfl | rfl) | rfl) | rfl := h <;> rfl

theorem endsNumber_append (hgap : ∀ c ∈ gap, isSpace c = true) (h : endsNumber rest = true) :
    endsNumber (gap ++ rest) = true := by
  cases gap with
  | nil => exact h
  | cons c r => exact endsNumber_of_isSpace (hgap c List.mem_cons_self) _

theorem nextElement_close (first : Bool) {s r : List Char} (hs : skipSpace s = ']' :: r) :
    nextElement first s = .ok (.close r) := by
  rw [nextElement, hs]
  rfl

theorem nextElement_first {c : Char} {s r : List Char} (hs : skipSpace s = c :: r) (hc : c ≠ ']') :
    nextElement true s = .ok (.item (c :: r)) := by
  rw [nextElement, hs]
  simp only [if_neg hc, if_true]

theorem nextElement_further {c : Char} {s r t : List Char} (hs : skipSpace s = ',' :: r) (hr : skipSpace r = c :: t)
    (hc : c ≠ ']') : nextElement false s = .ok (.item (c :: t)) := by
  have hcomma : ¬ ',' = ']' := by decide
  rw [nextElement, hs]
  simp only [if_neg hcomma, Bool.false_eq_true, if_false, if_true, hr, if_neg hc]

theorem readCoordsAfter_close {before : List Coord} {s r : List Char}
    (h : nextElement before.isEmpty s = .ok (.close r)) : readCoordsAfter before s = .ok (before.reverse, r) := by
  unfold readCoordsAfter
  split
  next heq => rw [h] at heq; cases heq
  next heq => rw [h] at heq; cases heq; rfl
  next heq => rw [h] at heq; cases heq

theorem readCoordsAfter_item {before : List Coord} {s r rest : List Char} {c : Coord}
    (h : nextElement before.isEmpty s = .ok (.item r)) (hread : readCoord r = .ok (c, rest)) :
    readCoordsAfter before s = readCoordsAfter (c :: before) rest := by
  conv_lhs => unfold readCoordsAfter
  split
  next heq => rw [h] at heq; cases heq
  next heq => rw [h] at heq; cases heq
  next heq =>
    rw [h] at heq
    cases heq
    split
    next heq => rw [hread] at heq; cases heq
    next heq => rw [hread] at heq; cases heq; rfl

theorem readCoordsAfter_item_error {before : List Coord} {s r : List Char} {e : Located}
    (h : nextElement before.isEmpty s = .ok (.item r)) (hread : readCoord r = .error e) :
    readCoordsAfter before s = .error e := by
  unfold readCoordsAfter
  split
  next heq => rw [h] at heq; cases heq
  next heq => rw [h] at heq; cases heq
  next heq =>
    rw [h] at heq
    cases heq
    split
    next heq => rw [hread] at heq; cases heq; rfl
    next heq => rw [hread] at heq; cases heq

theorem readCoords_open {s r : List Char} (hs : skipSpace s = '[' :: r) : readCoords s = readCoordsAfter [] r := by
  rw [readCoords, hs]
  rfl

variable (sp : Spacing)

theorem endsNumber_furtherCoords (cs : List Coord) (rest : List Char) :
    endsNumber (sp.furtherCoords cs ++ (sp.listEnd ++ (']' :: rest))) = true := by
  cases cs with
  | nil =>
    show endsNumber (sp.listEnd ++ (']' :: rest)) = true
    exact endsNumber_append sp.space_listEnd rfl
  | cons c cs => rfl

/-- The coordinates of a list behind the first one are read one after the other. -/
theorem readCoordsAfter_furtherCoords {cs : List Coord} (hcs : ∀ c ∈ cs, c.isFinite = true) {before : List Coord}
    (hbefore : before ≠ []) (rest : List Char) :
    readCoordsAfter before (sp.furtherCoords cs ++ (sp.listEnd ++ (']' :: rest))) =
      .ok (before.reverse ++ cs.map reread, rest) := by
  have hfirst : ∀ {before : List Coord}, before ≠ [] → before.isEmpty = false := List.isEmpty_eq_false_iff.mpr
  induction cs generalizing before with
  | nil =>
    rw [List.map_nil, List.append_nil]
    exact readCoordsAfter_close (nextElement_close _ (skipSpace_gap sp.space_listEnd rfl))
  | cons c cs ih =>
    have hc := hcs c List.mem_cons_self
    have hends := endsNumber_furtherCoords sp cs rest
    have hread := readCoord_coordText hc (List.forall_mem_nil _) hends
    obtain ⟨d, t, htext, hstart⟩ := coordText_starts hc
    have hnext : nextElement before.isEmpty (sp.furtherCoords (c :: cs) ++ (sp.listEnd ++ (']' :: rest))) =
        .ok (.item (coordText c ++ (sp.furtherCoords cs ++ (sp.listEnd ++ (']' :: rest))))) := by
      rw [hfirst hbefore, htext]
      have hsplit : sp.furtherCoords (c :: cs) ++ (sp.listEnd ++ (']' :: rest)) =
          ',' :: (sp.element ++ (d :: (t ++ (sp.furtherCoords cs ++ (sp.listEnd ++ (']' :: rest)))))) := by
        simp only [Spacing.furtherCoords, List.flatMap_cons, htext, List.cons_append, List.append_assoc]
      rw [hsplit]
      exact nextElement_further (skipSpace_cons rfl _)
        (skipSpace_gap sp.space_element (isSpace_of_startsNumber hstart)) (ne_of_startsNumber hstart rfl)
    rw [readCoordsAfter_item hnext hread, ih (fun c hc => hcs c (List.mem_cons_of_mem _ hc)) (List.cons_ne_nil _ _)]
    simp only [List.reverse_cons, List.append_assoc, List.singleton_append, List.map_cons]

/-- A printed list of finite coordinates is read as the list of what is read for each of them. -/
theorem readCoords_spaced {values : List Coord} (hvalues : ∀ c ∈ values, c.isFinite = true)
    (hgap : ∀ c ∈ gap, isSpace c = true) (rest : List Char) :
    readCoords (gap ++ (sp.coords values ++ rest)) = .ok (values.map reread, rest) := by
  have hopen : ∀ t, readCoords (gap ++ ('[' :: t)) = readCoordsAfter [] t :=
    fun t => readCoords_open (skipSpace_gap hgap rfl)
  cases values with
  | nil =>
    rw [Spacing.coords, List.cons_append, hopen]
    exact readCoordsAfter_close (nextElement_close true (skipSpace_cons rfl _))
  | cons c cs =>
    have hc := hvalues c List.mem_cons_self
    have hends := endsNumber_furtherCoords sp cs rest
    have hread := readCoord_coordText hc (List.forall_mem_nil _) hends
    obtain ⟨d, t, htext, hstart⟩ := coordText_starts hc
    have hnext : nextElement ([] : List Coord).isEmpty
        (sp.element ++ (coordText c ++ (sp.furtherCoords cs ++ (sp.listEnd ++ (']' :: rest))))) =
          .ok (.item (coordText c ++ (sp.furtherCoords cs ++ (sp.listEnd ++ (']' :: rest))))) := by
      rw [htext]
      exact nextElement_first (skipSpace_gap sp.space_element (isSpace_of_startsNumber hstart))
        (ne_of_startsNumber hstart rfl)
    simp only [Spacing.coords, List.cons_append, List.append_assoc, hopen, List.nil_append]
    rw [readCoordsAfter_item hnext hread,
      readCoordsAfter_furtherCoords sp (fun c hc => hvalues c (List.mem_cons_of_mem _ hc)) (List.cons_ne_nil _ _)]
    rfl

end Lists

/-! ## Records -/

section Records

variable {σ α : Type} {record : Record σ α} {draft draft' : σ} {m : Member σ} {gap name rest : List Char}

theorem readColon_spaced (hgap : ∀ c ∈ gap, isSpace c = true) (rest : List Char) :
    readColon (gap ++ (':' :: rest)) = .ok rest := by
  rw [readColon, skipSpace_gap hgap rfl]
  rfl

/-- A member of the record is read by its own reader, unless it is present already. -/
theorem readMember_known {raw : List Char} (hkey : Unescapes raw name)
    (hfind : (record.members.find? fun m => m.name.toList = name) = some m) (hgap : ∀ c ∈ gap, isSpace c = true)
    (draft : σ) (rest : List Char) :
    record.readMember draft (raw ++ ('"' :: (gap ++ (':' :: rest)))) =
      if m.isPresent draft then .error (Record.duplicate m.name (gap ++ (':' :: rest))) else m.read draft rest := by
  have hread : readString (raw ++ ('"' :: (gap ++ (':' :: rest)))) = .ok (name, gap ++ (':' :: rest)) :=
    readStringAfter_append hkey [] _
  simp only [Record.readMember, hread, hfind, readColon_spaced hgap]

/-- The value of any other member is skipped. -/
theorem readMember_unknown {raw : List Char} (hkey : Unescapes raw name)
    (hfind : (record.members.find? fun m => m.name.toList = name) = none) (hgap : ∀ c ∈ gap, isSpace c = true)
    (draft : σ) {value : List Char} (hskip : skipValue value = .ok rest) :
    record.readMember draft (raw ++ ('"' :: (gap ++ (':' :: value)))) = .ok (draft, rest) := by
  have hread : readString (raw ++ ('"' :: (gap ++ (':' :: value)))) = .ok (name, gap ++ (':' :: value)) :=
    readStringAfter_append hkey [] _
  simp only [Record.readMember, hread, hfind, readColon_spaced hgap, hskip]

theorem readMember_printed (hname : ∀ c ∈ name, isPlain c = true)
    (hfind : (record.members.find? fun m => m.name.toList = name) = some m) (hfresh : m.isPresent draft = false) :
    record.readMember draft (name ++ ('"' :: ':' :: rest)) = m.read draft rest := by
  have h := readMember_known (unescapes_of_isPlain hname) hfind (List.forall_mem_nil _) draft rest
  rwa [hfresh] at h

theorem readMembers_item {first : Bool} {s r rest : List Char} (h : nextKey first s = .ok (.item r))
    (hread : record.readMember draft r = .ok (draft', rest)) :
    record.readMembers first draft s = record.readMembers false draft' rest := by
  conv_lhs => unfold Record.readMembers
  split
  next heq => rw [h] at heq; cases heq
  next heq => rw [h] at heq; cases heq
  next heq =>
    rw [h] at heq
    cases heq
    split
    next heq => rw [hread] at heq; cases heq
    next heq => rw [hread] at heq; cases heq; rfl

theorem readMembers_item_error {first : Bool} {s r : List Char} {e : Located} (h : nextKey first s = .ok (.item r))
    (hread : record.readMember draft r = .error e) : record.readMembers first draft s = .error e := by
  unfold Record.readMembers
  split
  next heq => rw [h] at heq; cases heq
  next heq => rw [h] at heq; cases heq
  next heq =>
    rw [h] at heq
    cases heq
    split
    next heq => rw [hread] at heq; cases heq; rfl
    next heq => rw [hread] at heq; cases heq

theorem readMembers_close {first : Bool} {s r : List Char} (h : nextKey first s = .ok (.close r)) :
    record.readMembers first draft s = .ok (draft, r) := by
  unfold Record.readMembers
  split
  next heq => rw [h] at heq; cases heq
  next heq => rw [h] at heq; cases heq; rfl
  next heq => rw [h] at heq; cases heq

theorem nextKey_first {s : List Char} (hs : skipSpace s = '"' :: rest) : nextKey true s = .ok (.item rest) := by
  rw [nextKey, hs]
  rfl

theorem nextKey_further {s r : List Char} (hs : skipSpace s = ',' :: r) (hr : skipSpace r = '"' :: rest) :
    nextKey false s = .ok (.item rest) := by
  rw [nextKey, hs]
  simp only [hr]
  rfl

theorem nextKey_close (first : Bool) {s : List Char} (hs : skipSpace s = '\x7d' :: rest) :
    nextKey first s = .ok (.close rest) := by
  rw [nextKey, hs]
  rfl

section Members

variable (sp : Spacing) {value : List Char} (hname : ∀ c ∈ name, isPlain c = true)
  (hfind : (record.members.find? fun m => m.name.toList = name) = some m) (hfresh : m.isPresent draft = false)
  (hread : m.read draft (sp.colon ++ (value ++ rest)) = .ok (draft', rest))
include hname hfind hfresh hread

theorem readMembers_first :
    record.readMembers true draft (sp.member name value ++ rest) = record.readMembers false draft' rest := by
  simp only [Spacing.member, List.append_assoc, List.cons_append]
  exact readMembers_item (nextKey_first (skipSpace_gap sp.space_key rfl))
    ((readMember_printed hname hfind hfresh).trans hread)

theorem readMembers_further :
    record.readMembers false draft (',' :: (sp.member name value ++ rest)) = record.readMembers false draft' rest := by
  simp only [Spacing.member, List.append_assoc, List.cons_append]
  exact readMembers_item (nextKey_further (skipSpace_cons rfl _) (skipSpace_gap sp.space_key rfl))
    ((readMember_printed hname hfind hfresh).trans hread)

end Members

theorem read_object {value : α} {s r rest : List Char} (hs : skipSpace s = '\x7b' :: r)
    (h : record.readMembers true record.start r = .ok (draft, rest)) (hfinish : record.finish draft = .ok value) :
    record.read s = .ok (value, rest) := by
  rw [Record.read, hs]
  simp only [if_true, h, hfinish]

theorem read_object_error {e : Located} {s r : List Char} (hs : skipSpace s = '\x7b' :: r)
    (h : record.readMembers true record.start r = .error e) : record.read s = .error e := by
  rw [Record.read, hs]
  simp only [if_true, h]

end Records

/-! ## Paths -/

/-- A path with every coordinate as it is read where it was printed. -/
def rereadPath (p : Path) : Path := ⟨p.id, p.x.map reread, p.y.map reread⟩

section Members

variable (sp : Spacing) (draft : PathDraft) {values : List Coord} {rest : List Char}

theorem read_idMember (id : UInt32) (h : endsNumber rest = true) :
    idMember.read draft (sp.colon ++ (Nat.toDigits 10 id.toNat ++ rest)) =
      .ok ({ draft with id := some id }, rest) := by
  have hread := readWord_toDigits sp.space_colon id.toNat_lt (id.toNat_lt.trans (by decide)) h
  simp only [idMember, hread, UInt32.ofNat_toNat]

theorem read_xMember (h : ∀ c ∈ values, c.isFinite = true) :
    xMember.read draft (sp.colon ++ (sp.coords values ++ rest)) =
      .ok ({ draft with x := some (values.map reread) }, rest) := by
  simp only [xMember, readCoords_spaced sp h sp.space_colon]

theorem read_yMember (h : ∀ c ∈ values, c.isFinite = true) :
    yMember.read draft (sp.colon ++ (sp.coords values ++ rest)) =
      .ok ({ draft with y := some (values.map reread) }, rest) := by
  simp only [yMember, readCoords_spaced sp h sp.space_colon]

theorem isPlain_id : ∀ c ∈ ['i', 'd'], isPlain c = true := List.all_eq_true.mp rfl

theorem isPlain_x : ∀ c ∈ ['x'], isPlain c = true := List.all_eq_true.mp rfl

theorem isPlain_y : ∀ c ∈ ['y'], isPlain c = true := List.all_eq_true.mp rfl

end Members

section Paths

variable {p : Path} (hp : ∀ axis, ∀ c ∈ p.coords axis, c.isFinite = true) (sp : Spacing)
include hp

/-- A printed path is read as the path with every coordinate read again. -/
theorem read_spacedPath (rest : List Char) : pathRecord.read (sp.path p ++ rest) = .ok (rereadPath p, rest) := by
  obtain ⟨id, xs, ys⟩ := p
  have hxs : ∀ c ∈ xs, c.isFinite = true := hp .x
  have hys : ∀ c ∈ ys, c.isFinite = true := hp .y
  have hfinish : pathRecord.finish ⟨some id, some (xs.map reread), some (ys.map reread)⟩ =
      .ok (rereadPath ⟨id, xs, ys⟩) := rfl
  simp only [Spacing.path, List.cons_append, List.append_assoc, List.nil_append]
  refine read_object (skipSpace_cons rfl _) ?_ hfinish
  rw [readMembers_first sp isPlain_id rfl rfl (read_idMember sp _ id rfl),
    readMembers_further sp isPlain_x rfl rfl (read_xMember sp _ hxs),
    readMembers_further sp isPlain_y rfl rfl (read_yMember sp _ hys),
    readMembers_close (nextKey_close false (skipSpace_gap sp.space_finish rfl))]

/-- The same with space behind the document. -/
theorem readPath_spacedPath {gap : List Char} (hgap : ∀ c ∈ gap, isSpace c = true) :
    readPath (sp.path p ++ gap) = .ok (rereadPath p) := by
  simp only [readPath, readDocument, readAlone, read_spacedPath hp sp gap, skipSpace_eq_nil hgap]
  rfl

theorem readPath_compactPath {gap : List Char} (hgap : ∀ c ∈ gap, isSpace c = true) :
    readPath (compactPath p ++ gap) = .ok (rereadPath p) := by
  rw [Spacing.compactPath_eq]
  exact readPath_spacedPath hp .none hgap

theorem readPath_prettyPath {gap : List Char} (hgap : ∀ c ∈ gap, isSpace c = true) :
    readPath (prettyPath p ++ gap) = .ok (rereadPath p) := by
  rw [Spacing.prettyPath_eq]
  exact readPath_spacedPath hp .lines hgap

end Paths

end Polypath.Json

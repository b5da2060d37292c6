import Polypath.Proofs.Json.Values

/-!
# The members of a document

An object is written member by member, and what a member gives to a path is a matter of its key and the tokens of its
value (`MemberText.part?`). Reading puts the parts together in the order in which they come: if every member of the
path's own has a value of its type, the outcome is that of putting the parts together and nothing else
(`readPath_parts`), and otherwise the document is refused (`isSome_part?_of_readPath`). Every object that is read as a
path is written in this way (`writesObject_of_readPath`).
-/

namespace Polypath.Json

/-! ## Written members -/

/-- A member of an object as it is written. -/
structure MemberText where
  key : StringText
  /-- The characters that the key stands for. -/
  name : List Char
  value : List Token
  unescapes : Unescapes key.chars name
  derives : Derives .value value

/-- The tokens of an object from behind its opening bracket, or from behind a member. -/
def memberTokens (first : Bool) : List MemberText → List Token
  | [] => [.closing .object]
  | m :: ms => (if first then [] else [.comma]) ++ (.string m.key :: .colon :: (m.value ++ memberTokens false ms))

/-- The text is an object with the given members, with any space between its tokens and around it. -/
def WritesObject (ms : List MemberText) (text : List Char) : Prop :=
  ∃ t gap, text = t ++ gap ∧ Spaced (.opening .object :: memberTokens true ms) t ∧ ∀ c ∈ gap, isSpace c = true

section Texts

variable {first : Bool} {m : MemberText} {ms : List MemberText} {t : List Char}

theorem endsNumber_memberTokens (h : Spaced (memberTokens false ms) t) (rest : List Char) :
    endsNumber (t ++ rest) = true := by
  cases ms with
  | nil => exact h.endsNumber rfl rest
  | cons m ms => exact h.endsNumber rfl rest

/-- The tokens of a member behind the opening quote of its key. -/
def MemberText.Behind (m : MemberText) (s : List Char) : Prop :=
  ∃ gap v, s = m.key.chars ++ ('"' :: (gap ++ (':' :: v))) ∧ (∀ c ∈ gap, isSpace c = true) ∧ Spaced m.value v

theorem nextKey_member (h : Spaced (memberTokens first (m :: ms)) t) :
    ∃ s u, m.Behind s ∧ Spaced (memberTokens false ms) u ∧
      ∀ rest, nextKey first (t ++ rest) = .ok (.item (s ++ (u ++ rest))) := by
  rw [memberTokens] at h
  obtain ⟨lead, body, rfl, hlead, hbody⟩ := h.split
  cases hbody with
  | cons _ hkey hbody =>
    cases hbody with
    | cons _ hcolon hbody =>
      obtain ⟨v, u, rfl, hv, hu⟩ := hbody.split
      refine ⟨_, u, ⟨_, v, rfl, hcolon, hv⟩, hu, ?_⟩
      intro rest
      cases first with
      | true =>
        cases hlead
        simp only [Token.text, List.append_assoc, List.cons_append, List.nil_append]
        exact nextKey_first (skipSpace_gap hkey rfl)
      | false =>
        cases hlead with
        | cons _ hcomma hlead =>
          cases hlead
          simp only [Token.text, List.append_assoc, List.cons_append, List.nil_append]
          exact nextKey_further (skipSpace_gap hcomma rfl) (skipSpace_gap hkey rfl)

theorem nextKey_end (h : Spaced (memberTokens first []) t) (rest : List Char) :
    nextKey first (t ++ rest) = .ok (.close rest) := by
  cases h with
  | cons _ hgap h =>
    cases h
    simp only [Token.text, Bracket.closing, List.append_assoc, List.cons_append, List.nil_append]
    exact nextKey_close first (skipSpace_gap hgap rfl)

end Texts

/-! ## Parts of a path -/

/-- What a member gives to a path. -/
inductive PathPart where
  | other
  | id (n : UInt32)
  | coords (axis : Axis) (values : List Coord)

/-- The sequence of a draft along one axis. -/
def PathDraft.coords (draft : PathDraft) : Axis → Option (List Coord)
  | .x => draft.x
  | .y => draft.y

/-- The draft with its number given. -/
def PathDraft.withId (draft : PathDraft) (n : UInt32) : PathDraft := { draft with id := some n }

/-- The draft with one sequence given. -/
def PathDraft.withCoords (draft : PathDraft) (axis : Axis) (values : List Coord) : PathDraft :=
  match axis with
  | .x => { draft with x := some values }
  | .y => { draft with y := some values }

/-- Puts a part into a draft, unless the draft has it; the fault is the name of what is there twice. -/
def PathPart.put (draft : PathDraft) : PathPart → Except String PathDraft
  | .other => .ok draft
  | .id n => if draft.id.isSome then .error "id" else .ok (draft.withId n)
  | .coords axis values =>
    if (draft.coords axis).isSome then .error axis.name else .ok (draft.withCoords axis values)

/-- Puts parts into a draft, one after the other. -/
def gather (draft : PathDraft) (parts : List PathPart) : Except String PathDraft := parts.foldlM PathPart.put draft

/-- The path that is made of the given parts. -/
def assemble (parts : List PathPart) : Except Fault Path := do
  let draft ← (gather pathRecord.start parts).mapError Fault.duplicateField
  (pathRecord.finish draft).mapError Fault.missingField

/-- What a member gives to a path, if its value is of the right type. -/
def MemberText.part? (m : MemberText) : Option PathPart :=
  if m.name = "id".toList then (wordOf? 32 m.value).map fun n => .id (UInt32.ofNat n)
  else if m.name = "x".toList then (coordsOf? m.value).map (.coords .x)
  else if m.name = "y".toList then (coordsOf? m.value).map (.coords .y)
  else some .other

/-- What the members give to a path. -/
def partsOf (ms : List MemberText) : List PathPart := ms.filterMap MemberText.part?

/-! ## Reading a member -/

section Member

variable {m : MemberText} {s rest : List Char} {part : PathPart} (draft : PathDraft)

theorem mem_members_iff {member : Member PathDraft} :
    member ∈ pathRecord.members ↔ member = idMember ∨ member = xMember ∨ member = yMember := by
  simp [pathRecord]

theorem find?_members (name : List Char) :
    (pathRecord.members.find? fun member => member.name.toList = name) =
      if name = "id".toList then some idMember
      else if name = "x".toList then some xMember
      else if name = "y".toList then some yMember
      else none := by
  simp only [pathRecord, idMember, xMember, yMember, List.find?_cons, List.find?_nil, eq_comm (a := name)]
  repeat' split
  all_goals simp_all

/-- The outcome of reading a member that gives the part, if it does. -/
def Gives (draft : PathDraft) (rest : List Char) (outcome : Except Fault (PathDraft × List Char)) :
    Option PathPart → Prop
  | some part => outcome = ((part.put draft).mapError Fault.duplicateField).map fun d => (d, rest)
  | none => ∃ e, outcome = .error e

/-- A member of the path's own is read as its value is, unless it is there already. -/
theorem readMember_own {α : Type} {found : Option α} {member : Member PathDraft} {make : α → PathPart}
    {next : α → PathDraft} (hs : m.Behind s)
    (hfind : (pathRecord.members.find? fun member => member.name.toList = m.name) = some member)
    (hread : ∀ v, Spaced m.value v → (member.read draft (v ++ rest)).toOption = found.map fun a => (next a, rest))
    (hput : ∀ a, (make a).put draft = if member.isPresent draft then .error member.name else .ok (next a)) :
    Gives draft rest ((pathRecord.readMember draft (s ++ rest)).mapError Located.fault) (found.map make) := by
  obtain ⟨gap, v, rfl, hgap, hv⟩ := hs
  have hread := hread v hv
  simp only [List.append_assoc, List.cons_append]
  rw [readMember_known m.unescapes hfind hgap]
  cases found with
  | none =>
    obtain ⟨e, he⟩ := Outcome.toOption_eq_none_iff.mp hread
    rw [he]
    split
    · exact ⟨_, rfl⟩
    · exact ⟨_, rfl⟩
  | some a =>
    rw [Outcome.toOption_eq_some_iff.mp hread, Option.map_some, Gives, hput]
    split
    · rfl
    · rfl

theorem toOption_read_idMember (s : List Char) :
    (idMember.read draft s).toOption =
      (readWord 32 s).toOption.map fun p => (draft.withId (UInt32.ofNat p.1), p.2) := by
  simp only [idMember]
  cases readWord 32 s with
  | error e => rfl
  | ok p => rfl

theorem toOption_read_xMember (s : List Char) :
    (xMember.read draft s).toOption = (readCoords s).toOption.map fun p => (draft.withCoords .x p.1, p.2) := by
  simp only [xMember]
  cases readCoords s with
  | error e => rfl
  | ok p => rfl

theorem toOption_read_yMember (s : List Char) :
    (yMember.read draft s).toOption = (readCoords s).toOption.map fun p => (draft.withCoords .y p.1, p.2) := by
  simp only [yMember]
  cases readCoords s with
  | error e => rfl
  | ok p => rfl

/-- Reading a member gives its part. -/
theorem readMember_part (hs : m.Behind s) (h : endsNumber rest = true) :
    Gives draft rest ((pathRecord.readMember draft (s ++ rest)).mapError Located.fault) m.part? := by
  have hfind := find?_members m.name
  unfold MemberText.part?
  split at hfind
  next hid =>
    rw [if_pos hid]
    refine readMember_own draft hs hfind (fun v hv => ?_) fun _ => rfl
    rw [toOption_read_idMember, readWord_spaced 32 m.derives hv h, Option.map_map]
    rfl
  next hid =>
    rw [if_neg hid]
    split at hfind
    next hx =>
      rw [if_pos hx]
      refine readMember_own draft hs hfind (fun v hv => ?_) fun _ => rfl
      rw [toOption_read_xMember, readCoords_spaced_value m.derives hv, Option.map_map]
      rfl
    next hx =>
      rw [if_neg hx]
      split at hfind
      next hy =>
        rw [if_pos hy]
        refine readMember_own draft hs hfind (fun v hv => ?_) fun _ => rfl
        rw [toOption_read_yMember, readCoords_spaced_value m.derives hv, Option.map_map]
        rfl
      next hy =>
        rw [if_neg hy]
        obtain ⟨gap, v, rfl, hgap, hv⟩ := hs
        simp only [List.append_assoc, List.cons_append]
        rw [readMember_unknown m.unescapes hfind hgap draft (skipValue_append m.derives hv h)]
        rfl

end Member

/-! ## Reading all members -/

section Members

variable {first : Bool} {m : MemberText} {ms : List MemberText} {text t rest : List Char} {draft : PathDraft} {p : Path}

theorem partsOf_cons {part : PathPart} (h : m.part? = some part) : partsOf (m :: ms) = part :: partsOf ms :=
  List.filterMap_cons_some h

theorem mapError_readMembers {s : List Char} (draft : PathDraft) (h : nextKey first t = .ok (.item s)) :
    (pathRecord.readMembers first draft t).mapError Located.fault =
      (pathRecord.readMember draft s).mapError Located.fault >>= fun next =>
        (pathRecord.readMembers false next.1 next.2).mapError Located.fault := by
  cases hread : pathRecord.readMember draft s with
  | error e =>
    rw [readMembers_item_error h hread]
    rfl
  | ok next =>
    rw [readMembers_item h hread]
    rfl

/-- If all values are of the right type, reading the members is putting their parts together. -/
theorem readMembers_parts (hms : ∀ m ∈ ms, m.part?.isSome = true) (hs : Spaced (memberTokens first ms) t)
    (rest : List Char) :
    (pathRecord.readMembers first draft (t ++ rest)).mapError Located.fault =
      ((gather draft (partsOf ms)).mapError Fault.duplicateField).map fun d => (d, rest) := by
  induction ms generalizing first draft t with
  | nil =>
    rw [readMembers_close (nextKey_end hs rest)]
    rfl
  | cons m ms ih =>
    obtain ⟨s, u, hbehind, hu, hnext⟩ := nextKey_member hs
    obtain ⟨part, hpart⟩ := Option.isSome_iff_exists.mp (hms m List.mem_cons_self)
    have hgives := readMember_part draft hbehind (endsNumber_memberTokens hu rest)
    rw [hpart, Gives] at hgives
    rw [mapError_readMembers draft (hnext rest), hgives, partsOf_cons hpart, gather, List.foldlM_cons]
    cases part.put draft with
    | error name => rfl
    | ok next => exact ih (fun m hm => hms m (List.mem_cons_of_mem _ hm)) hu

/-- Members are read only if all their values are of the right type. -/
theorem isSome_part?_of_readMembers {result : PathDraft × List Char} (hs : Spaced (memberTokens first ms) t)
    (h : pathRecord.readMembers first draft (t ++ rest) = .ok result) : ∀ m ∈ ms, m.part?.isSome = true := by
  induction ms generalizing first draft t with
  | nil => exact List.forall_mem_nil _
  | cons m ms ih =>
    obtain ⟨s, u, hbehind, hu, hnext⟩ := nextKey_member hs
    have hgives := readMember_part draft hbehind (endsNumber_memberTokens hu rest)
    have hread := mapError_readMembers draft (hnext rest)
    rw [h] at hread
    cases hpart : m.part? with
    | none =>
      rw [hpart] at hgives
      obtain ⟨e, he⟩ := hgives
      rw [he] at hread
      cases hread
    | some part =>
      rw [hpart, Gives] at hgives
      rw [hgives] at hread
      cases hput : part.put draft with
      | error name =>
        rw [hput] at hread
        cases hread
      | ok next =>
        rw [hput] at hread
        have hrest : pathRecord.readMembers false next (u ++ rest) = .ok result :=
          Outcome.mapError_eq_ok_iff.mp hread.symm
        exact List.forall_mem_cons.mpr ⟨by rw [hpart]; rfl, ih hu hrest⟩

end Members

/-! ## Reading documents -/

section Documents

variable {ms : List MemberText} {text : List Char} {p : Path}

theorem mapError_read_object {s r : List Char} (hs : skipSpace s = '\x7b' :: r) :
    (pathRecord.read s).mapError Located.fault =
      (pathRecord.readMembers true pathRecord.start r).mapError Located.fault >>= fun next =>
        ((pathRecord.finish next.1).mapError Fault.missingField).map fun p => (p, next.2) := by
  rw [Record.read, hs]
  simp only [if_true]
  cases pathRecord.readMembers true pathRecord.start r with
  | error e => rfl
  | ok next =>
    rw [Outcome.mapError_ok, Outcome.ok_bind]
    cases hfinish : pathRecord.finish next.1 with
    | error name =>
      simp only [hfinish]
      rfl
    | ok p =>
      simp only [hfinish]
      rfl

theorem mapError_readPath {gap : List Char} (hgap : ∀ c ∈ gap, isSpace c = true) {outcome : Except Fault Path}
    (h : (pathRecord.read text).mapError Located.fault = outcome.map fun p => (p, gap)) :
    (readPath text).mapError Refusal.fault = outcome := by
  rw [readPath, readDocument, Outcome.mapError_mapError, readAlone]
  cases hread : pathRecord.read text with
  | error e =>
    rw [hread] at h
    cases outcome with
    | error fault =>
      cases h
      rfl
    | ok p => cases h
  | ok result =>
    rw [hread] at h
    cases outcome with
    | error fault => cases h
    | ok p =>
      cases h
      simp only [skipSpace_eq_nil hgap]
      rfl

theorem skipSpace_object {t : List Char} (h : Spaced (.opening .object :: memberTokens true ms) t) (rest : List Char) :
    ∃ s, skipSpace (t ++ rest) = '\x7b' :: (s ++ rest) ∧ Spaced (memberTokens true ms) s := by
  cases h with
  | @cons gap s _ _ hgap hs =>
    refine ⟨s, ?_, hs⟩
    simp only [Token.text, Bracket.opening, List.append_assoc, List.cons_append, List.nil_append]
    exact skipSpace_gap hgap rfl

/-- An object whose members have values of the right type is read as what its parts make. -/
theorem readPath_parts (h : WritesObject ms text) (hms : ∀ m ∈ ms, m.part?.isSome = true) :
    (readPath text).mapError Refusal.fault = assemble (partsOf ms) := by
  obtain ⟨t, gap, rfl, ht, hgap⟩ := h
  obtain ⟨s, hopen, hs⟩ := skipSpace_object ht gap
  refine mapError_readPath hgap ?_
  rw [mapError_read_object hopen, readMembers_parts hms hs gap, assemble]
  cases gather pathRecord.start (partsOf ms) with
  | error name => rfl
  | ok draft => rfl

theorem readPath_eq_ok (h : readPath text = .ok p) :
    ∃ rest, pathRecord.read text = .ok (p, rest) ∧ ∀ c ∈ rest, isSpace c = true := by
  have hread : readAlone pathRecord.read text = .ok p := Outcome.mapError_eq_ok_iff.mp h
  unfold readAlone at hread
  split at hread
  next => cases hread
  next value rest hvalue =>
    split at hread
    next hempty =>
      cases hread
      exact ⟨rest, hvalue, List.dropWhile_eq_nil_iff.mp (List.isEmpty_iff.mp hempty)⟩
    next => cases hread

theorem read_object_eq_ok {s r rest : List Char} (hs : skipSpace s = '\x7b' :: r)
    (h : pathRecord.read s = .ok (p, rest)) :
    ∃ draft, pathRecord.readMembers true pathRecord.start r = .ok (draft, rest) := by
  rw [Record.read, hs] at h
  simp only [if_true] at h
  split at h
  next => cases h
  next draft rest' hmembers =>
    split at h
    next =>
      cases h
      exact ⟨draft, hmembers⟩
    next => cases h

/-- An object is read as a path only if its members have values of the right type. -/
theorem isSome_part?_of_readPath (h : WritesObject ms text) (hread : readPath text = .ok p) :
    ∀ m ∈ ms, m.part?.isSome = true := by
  obtain ⟨t, gap, rfl, ht, hgap⟩ := h
  obtain ⟨s, hopen, hs⟩ := skipSpace_object ht gap
  obtain ⟨rest, hread, -⟩ := readPath_eq_ok hread
  obtain ⟨draft, hmembers⟩ := read_object_eq_ok hopen hread
  exact isSome_part?_of_readMembers hs hmembers

end Documents

/-! ## What is read is an object -/

section Written

variable {s r rest : List Char} {draft draft' : PathDraft} {p : Path}

theorem nextKey_eq_ok {first : Bool} {next : Next} (h : nextKey first s = .ok next) :
    (∃ r t, next = .close r ∧ s = t ++ r ∧ Spaced [.closing .object] t) ∨
    ∃ r t gap, next = .item r ∧ s = t ++ (gap ++ ('"' :: r)) ∧ Spaced (if first then [] else [.comma]) t ∧
      ∀ c ∈ gap, isSpace c = true := by
  unfold nextKey at h
  split at h
  next => cases h
  next c t hs =>
    obtain ⟨gap, rfl, hgap, -⟩ := skipSpace_eq_cons hs
    split at h
    next hc =>
      cases h
      exact .inl ⟨t, gap ++ (['\x7d'] ++ []), rfl, by simp [hc], .cons (.closing .object) hgap .nil⟩
    next =>
      split at h
      next hfirst =>
        split at h
        next hc =>
          cases h
          rw [hfirst, hc]
          exact .inr ⟨t, [], gap, rfl, rfl, .nil, hgap⟩
        next => cases h
      next hfirst =>
        split at h
        next hc =>
          split at h
          next => cases h
          next d u hr =>
            split at h
            next hd =>
              cases h
              obtain ⟨gap', rfl, hgap', -⟩ := skipSpace_eq_cons hr
              rw [if_neg hfirst]
              exact .inr ⟨u, gap ++ ([','] ++ []), gap', rfl, by simp [hc, hd], .cons .comma hgap .nil, hgap'⟩
            next => split at h <;> cases h
        next => cases h

/-- What a member of the path's own reads is a value. -/
theorem read_eq_ok {member : Member PathDraft} (hmember : member ∈ pathRecord.members)
    (h : member.read draft s = .ok (draft', r)) : ∃ v t, s = t ++ r ∧ Spaced v t ∧ Derives .value v := by
  have hread := Outcome.toOption_eq_some_iff.mpr h
  rcases mem_members_iff.mp hmember with rfl | rfl | rfl
  · rw [toOption_read_idMember] at hread
    obtain ⟨⟨n, rest⟩, hword, heq⟩ := Option.map_eq_some_iff.mp hread
    cases heq
    exact readWord_eq_ok (Outcome.toOption_eq_some_iff.mp hword)
  · rw [toOption_read_xMember] at hread
    obtain ⟨⟨values, rest⟩, hcoords, heq⟩ := Option.map_eq_some_iff.mp hread
    cases heq
    exact readCoords_eq_ok (Outcome.toOption_eq_some_iff.mp hcoords)
  · rw [toOption_read_yMember] at hread
    obtain ⟨⟨values, rest⟩, hcoords, heq⟩ := Option.map_eq_some_iff.mp hread
    cases heq
    exact readCoords_eq_ok (Outcome.toOption_eq_some_iff.mp hcoords)

theorem exists_behind {raw name gap v : List Char} {value : List Token} (hraw : Unescapes raw name)
    (hgap : ∀ c ∈ gap, isSpace c = true) (hv : Spaced value v) (hvalue : Derives .value value) :
    ∃ m : MemberText, m.Behind (raw ++ ('"' :: (gap ++ (':' :: v)))) :=
  ⟨⟨⟨raw, hraw.escaped⟩, name, value, hraw, hvalue⟩, gap, v, rfl, hgap, hv⟩

/-- What is read as a member is one. -/
theorem readMember_eq_ok (h : pathRecord.readMember draft s = .ok (draft', rest)) :
    ∃ (m : MemberText) (t : List Char), s = t ++ rest ∧ m.Behind t := by
  unfold Record.readMember at h
  split at h
  next => cases h
  next key r hkey =>
    obtain ⟨raw, name, rfl, hraw, -⟩ := readStringAfter_eq_ok hkey
    split at h
    next =>
      split at h
      next => cases h
      next hcolon =>
        obtain ⟨gap, rfl, hgap⟩ := readColon_eq_ok hcolon
        split at h
        next => cases h
        next hskip =>
          cases h
          obtain ⟨value, v, rfl, hv, hvalue⟩ := skipValue_eq_ok hskip
          obtain ⟨m, hm⟩ := exists_behind hraw hgap hv hvalue
          exact ⟨m, _, by simp, hm⟩
    next member hfind =>
      split at h
      next => cases h
      next =>
        split at h
        next => cases h
        next hcolon =>
          obtain ⟨gap, rfl, hgap⟩ := readColon_eq_ok hcolon
          obtain ⟨value, v, rfl, hv, hvalue⟩ := read_eq_ok (List.mem_of_find?_eq_some hfind) h
          obtain ⟨m, hm⟩ := exists_behind hraw hgap hv hvalue
          exact ⟨m, _, by simp, hm⟩

/-- The tokens of a member from its key on. -/
theorem MemberText.Behind.spaced {m : MemberText} {gap : List Char} (h : m.Behind s)
    (hgap : ∀ c ∈ gap, isSpace c = true) :
    Spaced (.string m.key :: .colon :: m.value) (gap ++ ('"' :: s)) := by
  obtain ⟨gap', v, rfl, hgap', hv⟩ := h
  simpa [Token.text] using Spaced.cons (.string m.key) hgap (.cons .colon hgap' hv)

/-- What is read as the members of an object is written as such. -/
theorem readMembers_eq_ok {first : Bool} (h : pathRecord.readMembers first draft s = .ok (draft', rest)) :
    ∃ ms t, s = t ++ rest ∧ Spaced (memberTokens first ms) t := by
  fun_induction Record.readMembers pathRecord first draft s with
  | case1 => cases h
  | case2 first draft s r hnext =>
    cases h
    obtain ⟨r, t, hclose, rfl, ht⟩ | ⟨r, t, gap, hitem, -⟩ := nextKey_eq_ok hnext
    · cases hclose
      exact ⟨[], t, rfl, ht⟩
    · cases hitem
  | case3 => cases h
  | case4 first draft s r hnext draft' rest' hmember ih =>
    obtain ⟨r, t, hclose, -⟩ | ⟨r, t, gap, hitem, rfl, ht, hgap⟩ := nextKey_eq_ok hnext
    · cases hclose
    · cases hitem
      obtain ⟨m, u, rfl, hu⟩ := readMember_eq_ok hmember
      obtain ⟨ms, w, rfl, hw⟩ := ih h
      refine ⟨m :: ms, t ++ ((gap ++ ('"' :: u)) ++ w), by simp, ht.append ?_⟩
      exact (hu.spaced hgap).append hw

/-- An object that is read as a path is written as one. -/
theorem writesObject_of_readPath {text : List Char} (h : readPath text = .ok p)
    (hobject : (skipSpace text).head? = some '\x7b') : ∃ ms, WritesObject ms text := by
  obtain ⟨rest, hread, hrest⟩ := readPath_eq_ok h
  obtain ⟨r, hopen⟩ := List.head?_eq_some_iff.mp hobject
  obtain ⟨draft, hmembers⟩ := read_object_eq_ok hopen hread
  obtain ⟨gap, rfl, hgap, -⟩ := skipSpace_eq_cons hopen
  obtain ⟨ms, t, rfl, ht⟩ := readMembers_eq_ok hmembers
  exact ⟨ms, gap ++ (['\x7b'] ++ t), rest, by simp, .cons (.opening .object) hgap ht, hrest⟩

end Written

end Polypath.Json

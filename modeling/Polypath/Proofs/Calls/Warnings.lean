import Polypath.Proofs.Calls.Effects

/-!
# Warnings of failed calls

A warning that begins with the name of a call is meant to tell that the call has failed. What is told on the way to a
result is never a warning (`Report.Quiet`), so a request warns by name exactly when it comes to nothing (`Ran.Told`), at
whatever point it is turned down: for its handle, its file name, its input, by the store or by the format. A reply adds
one more way to fail, a cell that is not there, and about that nothing is told. The main statement is
`calls_warn_iff`: a call warns by name exactly when it fails for any other reason, and `missing_cells_go_unmentioned`
shows the failures that the log does not have.
-/

namespace Polypath

namespace Journal

/-! ## Warnings that begin with a name -/

/-- The event is a warning whose text begins with a name. -/
def Event.Names (e : Event) (name : String) : Prop := e.severity = .warn ∧ name.toList <+: e.message.toList

theorem isPrefix_append (a b : String) : a.toList <+: (a ++ b).toList := by
  rw [String.toList_append]
  exact List.prefix_append _ _

/-- A text that begins with a name goes on doing so however much is put behind it. -/
theorem isPrefix_append_of_isPrefix {name a : String} (h : name.toList <+: a.toList) (b : String) :
    name.toList <+: (a ++ b).toList :=
  h.trans (isPrefix_append a b)

namespace Event

variable (call : String)

theorem names_notAHandle (raw : UInt64) : (notAHandle call raw).Names call :=
  ⟨rfl, isPrefix_append_of_isPrefix (isPrefix_append_of_isPrefix (isPrefix_append call _) _) _⟩

theorem names_refused (fault : Store.Fault) : (refused call fault).Names call :=
  ⟨rfl, isPrefix_append_of_isPrefix (isPrefix_append call _) _⟩

theorem names_failed (fault : Transfer.Fault) : (failed call fault).Names call :=
  ⟨rfl, isPrefix_append_of_isPrefix (isPrefix_append call _) _⟩

theorem names_absentInput (noun : String) (length : Nat) : (absentInput call noun length).Names call :=
  ⟨rfl, isPrefix_append_of_isPrefix
    (isPrefix_append_of_isPrefix (isPrefix_append_of_isPrefix (isPrefix_append call _) _) _) _⟩

theorem names_notText : (notText call).Names call := ⟨rfl, isPrefix_append call _⟩

theorem names_noFileName : (noFileName call).Names call := ⟨rfl, isPrefix_append call _⟩

theorem isPrefix_ignoredSetting (ignored : Limit.Ignored) :
    "ignoring ".toList <+: (ignoredSetting ignored).message.toList := by
  repeat' apply isPrefix_append_of_isPrefix
  exact List.prefix_rfl

end Event

/-! ## Reports and acts without warnings -/

namespace Report

variable {ε δ α β : Type}

/-- Nothing that is told on the way is a warning. -/
def Quiet (r : Report ε α) : Prop := ∀ e ∈ r.events, e.severity ≠ .warn

theorem quiet_pure (a : α) : Quiet (pure a : Report ε α) := fun _ he => absurd he List.not_mem_nil

theorem quiet_ofExcept (widen : δ → ε) (x : Except δ α) : (ofExcept widen x).Quiet :=
  fun _ he => absurd he List.not_mem_nil

theorem quiet_tell {e : Event} (he : e.severity ≠ .warn) : Quiet (tell e : Report ε Unit) := by
  intro e' he'
  rw [List.mem_singleton.mp he']
  exact he

theorem Quiet.bind {r : Report ε α} {next : α → Report ε β} (hr : r.Quiet) (hnext : ∀ a, (next a).Quiet) :
    (r >>= next).Quiet := by
  obtain ⟨value, events⟩ := r
  intro e he
  rcases List.mem_append.mp he with hfirst | hsecond
  · exact hr e hfirst
  · cases value with
    | ok a => exact hnext a e hsecond
    | error fault => cases hsecond

end Report

namespace Act

variable {σ τ ε δ α β : Type}

/-- Whatever the state, nothing that is told on the way is a warning. -/
def Quiet (x : Act σ ε α) : Prop := ∀ s, ∀ e ∈ x.events s, e.severity ≠ .warn

theorem quiet_pure (a : α) : Quiet (pure a : Act σ ε α) := fun _ _ he => absurd he List.not_mem_nil

theorem quiet_throw (fault : ε) : Quiet (throw fault : Act σ ε α) := fun _ _ he => absurd he List.not_mem_nil

theorem quiet_change (f : σ → σ) : Quiet (change f : Act σ ε Unit) := fun _ _ he => absurd he List.not_mem_nil

theorem quiet_look {report : σ → Report ε α} (hreport : ∀ s, (report s).Quiet) : Quiet (look report) := by
  intro s e he
  exact hreport s e ((List.mem_append.mp he).resolve_right List.not_mem_nil)

theorem quiet_ask (question : σ → Except ε α) : Quiet (ask question) :=
  quiet_look fun _ => Report.quiet_ofExcept _ _

theorem quiet_read (view : σ → α) : Quiet (read view : Act σ ε α) := quiet_look fun _ => Report.quiet_pure _

theorem quiet_tell {e : Event} (he : e.severity ≠ .warn) : Quiet (tell e : Act σ ε Unit) :=
  quiet_look fun _ => Report.quiet_tell he

theorem Quiet.bind {x : Act σ ε α} {next : α → Act σ ε β} (hx : x.Quiet) (hnext : ∀ a, (next a).Quiet) :
    (x >>= next).Quiet := by
  intro s e he
  change e ∈ (StateT.bind x _ s).events at he
  rcases hs : x s with ⟨⟨fault | a, t⟩, events⟩
  all_goals
    have hfirst : x.events s = events := congrArg Logged.events hs
    simp only [StateT.bind, hs] at he
    rcases List.mem_append.mp he with hbefore | hafter
    · exact hx s e (hfirst ▸ hbefore)
  · cases hafter
  · exact hnext a t e hafter

theorem Quiet.adapt {x : Act σ δ α} (hx : x.Quiet) (widen : δ → ε) : Quiet (adapt widen x) := by
  intro s e he
  exact hx s e ((List.mem_append.mp he).resolve_right List.not_mem_nil)

theorem Quiet.onPart {x : Act σ ε α} (hx : x.Quiet) (part : τ → σ) (put : σ → τ → τ) : Quiet (onPart part put x) := by
  intro t e he
  exact hx (part t) e ((List.mem_append.mp he).resolve_right List.not_mem_nil)

end Act

end Journal

open Journal

namespace Store

theorem quiet_place (p : Path) : Act.Quiet (place p) := by
  refine (Act.quiet_read _).bind fun free => ?_
  cases free with
  | nil =>
    refine (Act.quiet_read _).bind fun size => ?_
    split
    · exact (Act.quiet_change _).bind fun _ => Act.quiet_pure _
    · exact Act.quiet_throw _
  | cons index free =>
    refine (Act.quiet_read _).bind fun slot => ?_
    cases slot with
    | none => exact Act.quiet_throw _
    | some slot => exact (Act.quiet_change _).bind fun _ => (Act.quiet_change _).bind fun _ => Act.quiet_pure _

theorem quiet_insert (p : Path) : Act.Quiet (insert p) :=
  (quiet_place p).bind fun _ => (Act.quiet_change _).bind fun _ =>
    (Act.quiet_tell (by simp [Event.severity])).bind fun _ => Act.quiet_pure _

theorem quiet_release (h : Handle) : Act.Quiet (release h) := by
  unfold release
  split
  · exact (Act.quiet_change _).bind fun _ => Act.quiet_change _
  · exact Act.quiet_pure _

theorem quiet_destroy (h : Handle) : Act.Quiet (destroy h) :=
  (Act.quiet_ask _).bind fun _ => (Act.quiet_change _).bind fun _ => (Act.quiet_change _).bind fun _ =>
    (quiet_release h).bind fun _ => Act.quiet_tell (by simp [Event.severity])

theorem quiet_set (h : Handle) (axis : Axis) (values : List Coord) (declared : Nat) :
    Act.Quiet (set h axis values declared) := by
  refine (Act.quiet_ask _).bind fun _ => ?_
  split
  · exact (Act.quiet_ask _).bind fun _ => Act.quiet_change _
  · exact Act.quiet_throw _

end Store

namespace Transfer

open Wire

theorem quiet_encode (f : Format) (p : Path) : (encode f p).Quiet :=
  (Report.quiet_ofExcept _ _).bind fun _ => (Report.quiet_tell (by simp [Event.severity])).bind fun _ =>
    Report.quiet_pure _

theorem quiet_decodeAs (f : Format) (revision : Revision) (bytes : List UInt8) :
    (decodeAs f revision bytes).Quiet := by
  intro e he
  simp only [decodeAs, Report.events] at he
  split at he
  · cases he
  · rw [List.mem_singleton.mp he]
    simp [Event.severity]

theorem quiet_decode (f : Format) (reported : Option Nat) (bytes : List UInt8) : (decode f reported bytes).Quiet :=
  (Report.quiet_ofExcept _ _).bind fun _ => (Report.quiet_ofExcept _ _).bind fun revision =>
    (quiet_decodeAs f revision bytes).bind fun _ => (Report.quiet_tell (by simp [Event.severity])).bind fun _ =>
      Report.quiet_pure _

theorem quiet_toText (f : Format) (p : Path) : (toText f p).Quiet :=
  (quiet_encode f p).bind fun _ => Report.quiet_pure _

theorem quiet_ofText (f : Format) (text : String) : (ofText f text).Quiet :=
  (Report.quiet_ofExcept _ _).bind fun _ => quiet_decode f _ _

theorem quiet_writeFile (f : Format) (file : String) (p : Path) : Act.Quiet (writeFile f file p) :=
  (Act.quiet_look fun _ => quiet_encode f p).bind fun _ =>
    (((Act.quiet_ask _).bind fun _ => Act.quiet_change _).adapt Fault.file).bind fun _ =>
      Act.quiet_tell (by simp [Event.severity])

theorem quiet_readFile (f : Format) (tree : Files.Tree) (file : String) : (readFile f tree file).Quiet :=
  (Report.quiet_ofExcept _ _).bind fun _ => (Report.quiet_tell (by simp [Event.severity])).bind fun _ =>
    quiet_decode f _ _

/-- Moving a path into a store is as quiet as its arrival. -/
theorem quiet_arrive {arrival : Report Fault Path} (ha : arrival.Quiet) : Act.Quiet (arrive arrival) :=
  (Act.quiet_look fun _ => ha).bind fun p => (Store.quiet_insert p).adapt Fault.store

end Transfer

namespace Calls

open Wire

variable {α : Type} {s : Session} {c : Call}

/-! ## Requests -/

/-- The result of a request is lacking exactly when a warning by the name of the call tells so. -/
def Ran.Told (ran : Ran α) (c : Call) : Prop := (∃ e ∈ ran.events, e.Names c.name) ↔ ran.result = none

theorem eq_cons_append {letter : Char} {a : String} (h : ∃ letters, a.toList = letter :: letters) (b : String) :
    ∃ letters, (a ++ b).toList = letter :: letters := by
  obtain ⟨letters, h⟩ := h
  exact ⟨letters ++ b.toList, by rw [String.toList_append, h, List.cons_append]⟩

/-- The names of all calls begin with the same letter. -/
theorem Call.name_eq_cons (c : Call) : ∃ letters, c.name.toList = 't' :: letters := by
  -- the names are compared with their letters as they stand: equations for so long a table are slow to make
  cases c
  case set | getCoords => exact eq_cons_append ⟨_, String.toList_ofList⟩ _
  case getCount | getItem => exact eq_cons_append (eq_cons_append ⟨_, String.toList_ofList⟩ _) _
  all_goals exact ⟨_, String.toList_ofList⟩

/-- What is told about the setting begins with another letter than the name of any call. -/
theorem Session.not_names_of_opening (s : Session) (c : Call) {e : Event} (he : e ∈ s.openingEvents) :
    ¬ e.Names c.name := by
  rintro ⟨-, hname⟩
  obtain ⟨ignored, rfl⟩ : ∃ ignored, e = .ignoredSetting ignored := by
    unfold openingEvents Limit.settingEvents at he
    split at he
    · cases he
    · split at he
      · cases he
      · next ignored _ => exact ⟨ignored, List.mem_singleton.mp he⟩
  have hsetting := Event.isPrefix_ignoredSetting ignored
  obtain ⟨letters, hletters⟩ := c.name_eq_cons
  obtain ⟨rest, hrest⟩ := hname
  obtain ⟨other, hother⟩ := hsetting
  rw [← hrest, hletters] at hother
  simp at hother

theorem told_reject {e : Event} (he : e.Names c.name) : (s.reject e : Ran α).Told c :=
  ⟨fun _ => rfl, fun _ => ⟨e, List.mem_singleton.mpr rfl, he⟩⟩

theorem told_perform {ε : Type} {tellFault : ε → Event} {request : Act Session ε α}
    (hfault : ∀ fault, (tellFault fault).Names c.name) (hquiet : request.Quiet) :
    (s.perform tellFault request).Told c := by
  -- neither the opening nor the request itself warns by the name of the call
  have hbefore : ∀ e ∈ s.openingEvents ++ request.events { s with opened := true }, ¬ e.Names c.name := by
    intro e he hnames
    rcases List.mem_append.mp he with hopening | hrequest
    · exact s.not_names_of_opening c hopening hnames
    · exact hquiet _ e hrequest hnames.1
  unfold Session.perform
  dsimp only
  split
  · next result after _ =>
    refine ⟨?_, nofun⟩
    rintro ⟨e, he, hnames⟩
    exact absurd hnames (hbefore e he)
  · next fault _ _ =>
    exact ⟨fun _ => rfl, fun _ => ⟨_, List.mem_append_right _ (List.mem_singleton.mpr rfl), hfault fault⟩⟩

theorem told_onStore {ε : Type} {tellFault : ε → Event} {act : Act Store ε α}
    (hfault : ∀ fault, (tellFault fault).Names c.name) (hquiet : act.Quiet) :
    (s.perform tellFault (Session.onStore act)).Told c :=
  told_perform hfault (hquiet.onPart _ _)

theorem told_withHandle {request : Handle → Ran α} (hrequest : ∀ h, (request h).Told c) (raw : UInt64) :
    (s.withHandle c.name raw request).Told c := by
  unfold Session.withHandle
  split
  · exact told_reject (Event.names_notAHandle _ _)
  · exact hrequest _

theorem told_withFileName {request : String → Ran α} (hrequest : ∀ name, (request name).Told c)
    (file : Option (List UInt8)) : (s.withFileName c.name file request).Told c := by
  unfold Session.withFileName
  split
  · exact told_reject (Event.names_noFileName _)
  · exact hrequest _

theorem told_inspect (raw : UInt64) (look : Store → Handle → Except Store.Fault α) :
    (s.inspect c.name raw look).Told c :=
  told_withHandle (fun _ => told_perform (Event.names_refused _) (Act.quiet_ask _)) raw

/-- A look comes to nothing exactly when there is nothing that it can give. -/
theorem Session.Tried.result_eq_none_iff {has : α → Prop} {later : Session} {ran : Ran α}
    (hran : s.Tried (fun a after => has a ∧ after = later) ran) : ran.result = none ↔ ¬ ∃ a, has a := by
  cases hran with
  | @done a after events hcan => exact ⟨nofun, fun hnone => absurd ⟨a, hcan.1⟩ hnone⟩
  | refused hcan hs => exact ⟨fun _ ⟨a, ha⟩ => hcan a later ⟨ha, rfl⟩, fun _ => rfl⟩

/-! ## Replies -/

/-- All that a call lacks is a cell for what it has to give; a call with two cells does not look further than that. -/
def Session.LacksCell (s : Session) (c : Call) : Prop :=
  none ∈ c.cells ∧ (c.cells.length = 2 ∨ ∃ contents, c.Gives s.format.limit s.path? contents)

/-- A call warns by name exactly when it fails for another reason than a missing cell. -/
def Outcome.WarnsFor (out : Outcome) (s : Session) (c : Call) : Prop :=
  (∃ e ∈ out.events, e.Names c.name) ↔ out.reply.isFailure = true ∧ ¬ s.LacksCell c

theorem not_lacksCell_of_cells (hcells : c.cells = []) : ¬ s.LacksCell c := by
  rintro ⟨hnone, -⟩
  rw [hcells] at hnone
  cases hnone

theorem Ran.Told.replyMade {ran : Ran Handle} (hran : ran.Told c) (hcells : c.cells = []) :
    (Session.replyMade ran).WarnsFor s c := by
  have hfailure : (Session.replyMade ran).reply.isFailure = true ↔ ran.result = none := by
    obtain ⟨result, after, events⟩ := ran
    cases result with
    | none => exact ⟨fun _ => rfl, fun _ => rfl⟩
    | some h => simp [Session.replyMade, Reply.isFailure, h.toRaw_ne_invalidRaw]
  exact hran.trans (hfailure.symm.trans (and_iff_left (not_lacksCell_of_cells hcells)).symm)

theorem Ran.Told.replyFlag {ran : Ran α} (hran : ran.Told c) (hcells : c.cells = []) :
    (Session.replyFlag ran).WarnsFor s c := by
  have hfailure : (Session.replyFlag ran).reply.isFailure = true ↔ ran.result = none := by
    simp [Session.replyFlag, Reply.isFailure]
  exact hran.trans (hfailure.symm.trans (and_iff_left (not_lacksCell_of_cells hcells)).symm)

/-- A call with one cell fails for the cell alone exactly when its request comes to something. -/
theorem Ran.Told.replyCell {ran : Ran α} {reply : Bool → Cell α → Reply} {out : Cell α} {content : α → Content}
    (hran : ran.Told c) (hcells : c.cells = [out.map content])
    (hreply : ∀ success out, (reply success out).isFailure = !success)
    (hgives : ran.result = none ↔ ¬ ∃ contents, c.Gives s.format.limit s.path? contents) :
    (Session.replyCell reply out ran).WarnsFor s c := by
  have hfailure : (Session.replyCell reply out ran).reply.isFailure = true ↔ ran.result = none ∨ out = none := by
    obtain ⟨result, after, events⟩ := ran
    cases result with
    | none => simp [Session.replyCell, hreply]
    | some value =>
      cases out with
      | none => simp [Session.replyCell, hreply]
      | some old => simp [Session.replyCell, hreply]
  have hevents : (Session.replyCell reply out ran).events = ran.events := by
    unfold Session.replyCell
    split <;> rfl
  have hlacks : s.LacksCell c ↔ out = none ∧ ¬ ran.result = none := by
    rw [hgives, not_not]
    simp [Session.LacksCell, hcells]
  rw [Outcome.WarnsFor, hevents, hfailure, hlacks]
  refine hran.trans ⟨fun hnone => ⟨.inl hnone, fun hboth => hboth.2 hnone⟩, ?_⟩
  rintro ⟨hresult | hout, hother⟩
  · exact hresult
  · exact Decidable.not_not.mp fun hsome => hother ⟨hout, hsome⟩

/-- A call with two cells looks for them first. -/
theorem Ran.Told.replySequence {ran : Ran (List α)} {reply : Bool → Cell (Option (List α)) → Cell Nat → Reply}
    {outValues : Cell (Option (List α))} {outCount : Cell Nat} {content : Option (List α) → Content}
    (hran : ran.Told c) (hcells : c.cells = [outValues.map content, outCount.map .count])
    (hreply : ∀ success outValues outCount, (reply success outValues outCount).isFailure = !success) :
    (s.replySequence reply outValues outCount ran).WarnsFor s c := by
  unfold Session.replySequence
  split
  · next oldValues oldCount =>
    have hgiven : ¬ s.LacksCell c := by simp [Session.LacksCell, hcells]
    split
    · next values hresult => simpa [Outcome.WarnsFor, Ran.Told, hreply, hresult] using hran
    · next hresult => simpa [Outcome.WarnsFor, Ran.Told, hreply, hresult, hgiven] using hran
  · next hmissing =>
    have hlacks : s.LacksCell c := by
      refine ⟨?_, .inl (by rw [hcells]; rfl)⟩
      cases outValues with
      | none => simp [hcells]
      | some oldValues =>
        cases outCount with
        | none => simp [hcells]
        | some oldCount => exact absurd rfl (hmissing oldValues oldCount rfl)
    simp [Outcome.WarnsFor, hlacks]

/-! ## Every call -/

/-- **Warnings tell failures, except for missing cells.** Whatever the session and the call, the log gets a warning that
begins with the name of the call exactly when the call returns `false` or zero and does not do so for lack of a cell
alone. -/
theorem calls_warn_iff (s : Session) (c : Call) :
    (∃ e ∈ (s.call c).events, e.severity = .warn ∧ c.name.toList <+: e.message.toList) ↔
      (s.call c).reply.isFailure = true ∧
        ¬ (none ∈ c.cells ∧ (c.cells.length = 2 ∨ ∃ contents, c.Gives s.format.limit s.path? contents)) := by
  change (s.call c).WarnsFor s c
  cases c with
  | create id => exact (told_onStore (Event.names_refused _) (Store.quiet_insert _)).replyMade rfl
  | destroy raw =>
    exact (told_withHandle (fun h => told_onStore (Event.names_refused _) (Store.quiet_destroy h)) raw).replyFlag rfl
  | set axis raw values =>
    exact (told_withHandle (fun h => told_onStore (Event.names_refused _) (Store.quiet_set h axis _ _)) raw).replyFlag
      rfl
  | getId raw out =>
    refine (told_inspect raw _).replyCell rfl (fun _ _ => rfl) ?_
    rw [(Session.tried_inspect (fun h id => Store.id_eq_ok_iff) _ raw).result_eq_none_iff]
    simp [Call.Gives]
  | getCount axis raw out =>
    refine (told_inspect raw _).replyCell rfl (fun _ _ => rfl) ?_
    rw [(Session.tried_inspect (fun h count => Store.count_eq_ok_iff) _ raw).result_eq_none_iff]
    simp [Call.Gives]
  | getItem axis raw index out =>
    refine (told_inspect raw _).replyCell rfl (fun _ _ => rfl) ?_
    rw [(Session.tried_inspect (fun h c => Store.item_eq_ok_iff) _ raw).result_eq_none_iff]
    refine not_congr ⟨?_, ?_⟩
    · rintro ⟨c, p, hp, hc⟩
      exact ⟨_, p, c, hp, hc, rfl⟩
    · rintro ⟨_, p, c, hp, hc, -⟩
      exact ⟨c, p, hp, hc⟩
  | getCoords axis raw outValues outCount => exact (told_inspect raw _).replySequence rfl fun _ _ _ => rfl
  | serialize raw outBytes outLength =>
    exact (told_withHandle (fun h => told_perform (Event.names_failed _) (Act.quiet_look fun _ =>
      (Report.quiet_ofExcept _ _).bind fun p => Transfer.quiet_encode _ p)) raw).replySequence rfl fun _ _ _ => rfl
  | serializeText raw outText outLength =>
    exact (told_withHandle (fun h => told_perform (Event.names_failed _) (Act.quiet_look fun _ =>
      ((Report.quiet_ofExcept _ _).bind fun p => Transfer.quiet_toText _ p).bind fun _ =>
        Report.quiet_pure _)) raw).replySequence rfl fun _ _ _ => rfl
  | serializeFile raw file =>
    exact (told_withFileName (fun name => told_withHandle (fun h => told_perform (Event.names_failed _)
      (((Act.quiet_look fun _ => Report.quiet_ofExcept _ _).bind fun p =>
        Transfer.quiet_writeFile _ _ p).onPart _ _)) raw) file).replyFlag rfl
  | deserialize input =>
    refine Ran.Told.replyMade ?_ rfl
    split
    · exact told_reject (Event.names_absentInput _ _ _)
    · exact told_onStore (Event.names_failed _) (Transfer.quiet_arrive (Transfer.quiet_decode _ _ _))
  | deserializeText input =>
    refine Ran.Told.replyMade ?_ rfl
    split
    · exact told_reject (Event.names_absentInput _ _ _)
    · split
      · exact told_reject (Event.names_notText _)
      · exact told_onStore (Event.names_failed _) (Transfer.quiet_arrive (Transfer.quiet_ofText _ _))
  | deserializeFile file =>
    exact (told_withFileName (fun name => told_onStore (Event.names_failed _)
      (Transfer.quiet_arrive (Transfer.quiet_readFile _ _ _))) file).replyMade rfl
  | liveCount =>
    refine ⟨?_, fun hfailure => absurd hfailure.1 Bool.false_ne_true⟩
    rintro ⟨e, he, hnames⟩
    exact absurd hnames (s.not_names_of_opening _ he)
  | freeNothing =>
    refine ⟨?_, fun hfailure => absurd hfailure.1 Bool.false_ne_true⟩
    rintro ⟨e, he, -⟩
    cases he

/-- A live path is asked for without a cell, without cells, and with one cell of two. The calls fail and the log stays
empty. -/
theorem missing_cells_go_unmentioned :
    let s := ((Session.start .empty none).call (.create 5)).session
    ∀ c ∈ [Call.getId 4294967296 none, .getCoords .x 4294967296 none none, .serialize 4294967296 (some none) none],
      (s.call c).reply.isFailure = true ∧
        ¬ ∃ e ∈ (s.call c).events, e.severity = .warn ∧ c.name.toList <+: e.message.toList := by
  intro s c hc
  have hsilent : (s.call c).reply.isFailure = true ∧ (s.call c).events = [] := by
    simp only [List.mem_cons, List.not_mem_nil, or_false] at hc
    rcases hc with rfl | rfl | rfl
    · exact ⟨by decide, by decide⟩
    · exact ⟨by decide, by decide⟩
    · exact ⟨by decide, by decide⟩
  refine ⟨hsilent.1, ?_⟩
  rw [hsilent.2]
  rintro ⟨e, he, -⟩
  cases he

end Calls

end Polypath

import Mathlib.Data.List.Forall2
import Polypath.Command.Program
import Polypath.Proofs.Decimal.Spelling
import Polypath.Proofs.Text.Base64Url
import Polypath.Proofs.Transfer.Outcomes

/-!
# Which element limit holds

A limit is written as a number: a plus sign or none, and digits (`Text.Writes`). Reading takes the digits from left to
right and stops at the first one with which the number outgrows a word, and this is no loss: the number only grows, so
it is refused exactly if the whole of it is too large (`appendDigits_eq_ok_iff`). A setting is such a number between
blanks (`Limit.Chooses`), and everything else that is not blank is put aside with a warning.

On a command line the limit is the value of an option. What the words give for it is told without the reader
(`Usage.limitValues`); the words are read one by one into a draft, each step takes the values that it examines off that
list (`takeWord_passes`), and so does the whole reading (`readFrom_limit`). The last value wins over the others and over
the setting (`limit_by_option_or_setting`).
-/

namespace Polypath

open Outcome

/-! ## Numbers -/

namespace Text

/-- The text writes the number: a plus sign or none, and one or more digits, the first of which may be zeros. -/
def Writes (s : List Char) (n : Nat) : Prop :=
  ∃ sign digits, s = sign ++ digits ∧ (sign = [] ∨ sign = ['+']) ∧ Decimal.IsDigits digits ∧
    Nat.ofDigitChars 10 digits 0 = n

/-- Digits are appended exactly when they are all digits and the number that they come to is a word. -/
theorem appendDigits_eq_ok_iff {ds : List Char} {n m : Nat} (hn : n < UInt64.size) :
    appendDigits n ds = .ok m ↔
      (∀ c ∈ ds, c.isDigit = true) ∧ Nat.ofDigitChars 10 ds n = m ∧ m < UInt64.size := by
  induction ds generalizing n with
  | nil =>
    simp only [appendDigits, Except.ok.injEq, Nat.ofDigitChars_nil]
    constructor
    · rintro rfl
      exact ⟨List.forall_mem_nil _, rfl, hn⟩
    · exact fun h => h.2.1
  | cons c cs ih =>
    rw [appendDigits, digit?, List.forall_mem_cons, Nat.ofDigitChars_cons]
    by_cases hc : c.isDigit = true
    · simp only [hc, if_true, true_and]
      split
      · next hfits => exact ih hfits
      · next hlarge =>
        -- the digits that are left can only make the number larger
        have hgrows := Decimal.le_ofDigitChars cs (10 * n + (c.toNat - '0'.toNat))
        constructor
        · rintro ⟨⟩
        · rintro ⟨-, rfl, hm⟩
          exact absurd (hgrows.trans_lt hm) hlarge
    · simp [hc]

theorem map_ofNat_eq_ok_iff {ds : List Char} {n : UInt64} :
    UInt64.ofNat <$> appendDigits 0 ds = .ok n ↔ appendDigits 0 ds = .ok n.toNat := by
  cases hread : appendDigits 0 ds with
  | error fault => simp [Functor.map, Except.map]
  | ok m =>
    have hm : m < UInt64.size := ((appendDigits_eq_ok_iff (by decide)).mp hread).2.2
    simp only [Functor.map, Except.map, Except.ok.injEq]
    constructor
    · rintro rfl
      rw [UInt64.toNat_ofNat_of_lt' hm]
    · rintro rfl
      exact UInt64.ofNat_toNat

/-- A word is read exactly from the texts that write it. -/
theorem readWord_eq_ok_iff {s : List Char} {n : UInt64} : readWord s = .ok n ↔ Writes s n.toNat := by
  have hdigits : ∀ ds, appendDigits 0 ds = .ok n.toNat ↔
      (∀ c ∈ ds, c.isDigit = true) ∧ Nat.ofDigitChars 10 ds 0 = n.toNat := by
    intro ds
    rw [appendDigits_eq_ok_iff (by decide)]
    exact and_congr_right fun _ => and_iff_left n.toNat_lt
  have hplus : ¬ '+'.isDigit = true := by decide
  constructor
  · intro h
    unfold readWord at h
    split at h
    · cases h
    · cases h
    · next ds hne =>
      obtain ⟨hall, hvalue⟩ := (hdigits ds).mp (map_ofNat_eq_ok_iff.mp h)
      exact ⟨['+'], ds, rfl, .inr rfl, ⟨hne, hall⟩, hvalue⟩
    · next hne _ _ =>
      obtain ⟨hall, hvalue⟩ := (hdigits s).mp (map_ofNat_eq_ok_iff.mp h)
      exact ⟨[], s, rfl, .inl rfl, ⟨hne, hall⟩, hvalue⟩
  · rintro ⟨sign, ds, rfl, hsign, ⟨hne, hall⟩, hvalue⟩
    have hread := map_ofNat_eq_ok_iff.mpr ((hdigits ds).mpr ⟨hall, hvalue⟩)
    rcases hsign with rfl | rfl
    · rw [List.nil_append]
      unfold readWord
      split
      · exact absurd rfl hne
      · exact absurd (hall '+' List.mem_cons_self) hplus
      · exact absurd (hall '+' List.mem_cons_self) hplus
      · exact hread
    · rw [List.singleton_append]
      unfold readWord
      split
      · next heq => cases heq
      · next heq => exact absurd (List.cons.inj heq).2 hne
      · next heq =>
        rw [← (List.cons.inj heq).2]
        exact hread
      · next hnot => exact absurd rfl (hnot ds)

/-! ## Blanks -/

theorem isBlank_of_writes {s : List Char} {n : Nat} (h : Writes s n) : ∀ c ∈ s, isBlank c = false := by
  obtain ⟨sign, ds, rfl, hsign, ⟨-, hall⟩, -⟩ := h
  intro c hc
  rcases List.mem_append.mp hc with hc | hc
  · rcases hsign with rfl | rfl
    · cases hc
    · rw [List.mem_singleton.mp hc]
      rfl
  · have hdigit := hall c hc
    simp only [Char.isDigit, Bool.and_eq_true, decide_eq_true_eq] at hdigit
    have hlow : 48 ≤ c.toNat := hdigit.1
    have hhigh : c.toNat ≤ 57 := hdigit.2
    simp only [isBlank, Bool.or_eq_false_iff, Bool.and_eq_false_iff, decide_eq_false_iff_not]
    omega

/-- A text is what is left of it without surrounding blanks, with blanks around it. -/
theorem exists_blanks (s : List Char) : ∃ lead trail, s = lead ++ trim s ++ trail ∧
    (∀ c ∈ lead, isBlank c = true) ∧ ∀ c ∈ trail, isBlank c = true := by
  have hback := congrArg List.reverse
    (List.takeWhile_append_dropWhile (p := isBlank) (l := (s.dropWhile isBlank).reverse))
  rw [List.reverse_append, List.reverse_reverse] at hback
  refine ⟨s.takeWhile isBlank, ((s.dropWhile isBlank).reverse.takeWhile isBlank).reverse, ?_, ?_, ?_⟩
  · rw [trim, trimEnd, List.append_assoc, hback, List.takeWhile_append_dropWhile]
  · exact fun c hc => List.mem_takeWhile_imp hc
  · exact fun c hc => List.mem_takeWhile_imp (List.mem_reverse.mp hc)

theorem trim_eq_nil_iff {s : List Char} : trim s = [] ↔ ∀ c ∈ s, isBlank c = true := by
  constructor
  · intro hnil
    obtain ⟨lead, trail, hs, hlead, htrail⟩ := exists_blanks s
    rw [hnil, List.append_nil] at hs
    rw [hs]
    exact List.forall_mem_append.mpr ⟨hlead, htrail⟩
  · intro hblank
    rw [trim, List.dropWhile_eq_nil_iff.mpr hblank]
    rfl

end Text

/-! ## Settings -/

namespace Limit

open Journal

/-- The setting chooses the limit: there is one, and between blanks it writes that number. -/
def Chooses (setting : Option String) (limit : UInt64) : Prop :=
  ∃ s lead number trail, setting = some s ∧ s.toList = lead ++ number ++ trail ∧
    (∀ c ∈ lead, Text.isBlank c = true) ∧ (∀ c ∈ trail, Text.isBlank c = true) ∧ Text.Writes number limit.toNat

/-- The setting is there and not blank, and chooses no limit. -/
def IsAmiss (setting : Option String) : Prop :=
  ∃ s, setting = some s ∧ (∃ c ∈ s.toList, Text.isBlank c = false) ∧ ∀ limit, ¬ Chooses setting limit

variable {setting : Option String} {limit : UInt64}

theorem chooses_some_iff {s : String} : Chooses (some s) limit ↔ Text.readWord (Text.trim s.toList) = .ok limit := by
  rw [Text.readWord_eq_ok_iff]
  constructor
  · rintro ⟨_, lead, number, trail, ⟨⟩, hs, hlead, htrail, hnumber⟩
    rw [hs, Text.trim_append hlead (Text.isBlank_of_writes hnumber) htrail]
    exact hnumber
  · intro hnumber
    obtain ⟨lead, trail, hs, hlead, htrail⟩ := Text.exists_blanks s.toList
    exact ⟨s, lead, _, trail, rfl, hs, hlead, htrail, hnumber⟩

/-- A setting with something in it is read as a number. -/
theorem readSetting_of_visible {s : String} (hne : Text.trim s.toList ≠ []) :
    readSetting (some s) = (Text.readWord (Text.trim s.toList)).mapError fun fault => ⟨Text.trim s.toList, fault⟩ := by
  simp only [readSetting, Option.map_some]
  cases Text.readWord (Text.trim s.toList) <;> rfl

/-- A setting that chooses a limit is read as that limit. -/
theorem readSetting_of_chooses (h : Chooses setting limit) : readSetting setting = .ok limit := by
  obtain ⟨s, -, -, -, rfl, -⟩ := id h
  have hread := chooses_some_iff.mp h
  have hne : Text.trim s.toList ≠ [] := by
    intro hnil
    rw [hnil] at hread
    cases hread
  rw [readSetting_of_visible hne, hread]
  rfl

/-- A setting that is amiss is put aside. -/
theorem readSetting_of_isAmiss (h : IsAmiss setting) : ∃ ignored, readSetting setting = .error ignored := by
  obtain ⟨s, rfl, ⟨c, hc, hblank⟩, hnone⟩ := h
  have hne : Text.trim s.toList ≠ [] := by
    intro hnil
    rw [Text.trim_eq_nil_iff.mp hnil c hc] at hblank
    cases hblank
  rw [readSetting_of_visible hne]
  cases hread : Text.readWord (Text.trim s.toList) with
  | ok limit => exact absurd (chooses_some_iff.mpr hread) (hnone limit)
  | error fault => exact ⟨_, rfl⟩

/-- A setting that neither chooses a limit nor is amiss is absent or blank, and leaves the default. -/
theorem readSetting_of_neither (hnone : ∀ limit, ¬ Chooses setting limit) (hamiss : ¬ IsAmiss setting) :
    readSetting setting = .ok Wire.defaultLimit := by
  cases setting with
  | none => rfl
  | some s =>
    have hblank : Text.trim s.toList = [] := by
      rw [Text.trim_eq_nil_iff]
      intro c hc
      by_contra hvisible
      exact hamiss ⟨s, rfl, ⟨c, hc, Bool.eq_false_iff.mpr hvisible⟩, hnone⟩
    simp only [readSetting, Option.map_some, hblank]

/-- What is told about a setting: one warning if it is amiss, and nothing otherwise. -/
theorem settingEvents_spec (setting : Option String) :
    (IsAmiss setting → ∃ ignored, settingEvents setting = [.ignoredSetting ignored]) ∧
      (¬ IsAmiss setting → settingEvents setting = []) := by
  constructor
  · intro hamiss
    obtain ⟨ignored, hread⟩ := readSetting_of_isAmiss hamiss
    exact ⟨ignored, by rw [settingEvents, hread]⟩
  · intro hamiss
    by_cases hchosen : ∃ limit, Chooses setting limit
    · obtain ⟨limit, hlimit⟩ := hchosen
      rw [settingEvents, readSetting_of_chooses hlimit]
    · rw [settingEvents, readSetting_of_neither (not_exists.mp hchosen) hamiss]

/-- The limit of a setting is the one that it chooses, or else the default. -/
theorem ofSetting_eq_iff : ofSetting setting = limit ↔
    Chooses setting limit ∨ (∀ other, ¬ Chooses setting other) ∧ limit = Wire.defaultLimit := by
  by_cases hchosen : ∃ other, Chooses setting other
  · obtain ⟨other, hother⟩ := hchosen
    have hread := readSetting_of_chooses hother
    have hlimit : ofSetting setting = other := by rw [ofSetting, hread]
    rw [hlimit]
    constructor
    · rintro rfl
      exact .inl hother
    · rintro (h | ⟨hnone, -⟩)
      · exact Except.ok.inj (hread.symm.trans (readSetting_of_chooses h))
      · exact absurd hother (hnone other)
  · have hnone := not_exists.mp hchosen
    have hlimit : ofSetting setting = Wire.defaultLimit := by
      by_cases hamiss : IsAmiss setting
      · obtain ⟨ignored, hread⟩ := readSetting_of_isAmiss hamiss
        rw [ofSetting, hread]
      · rw [ofSetting, readSetting_of_neither hnone hamiss]
    rw [hlimit]
    constructor
    · rintro rfl
      exact .inr ⟨hnone, rfl⟩
    · rintro (h | ⟨-, rfl⟩)
      · exact absurd h (hnone limit)
      · rfl

end Limit

/-! ## Options -/

namespace Usage

/-- The value that a word gives for the limit behind an equals sign. -/
def attached? (word : String) : Option String :=
  (word.toList.dropPrefix? "--max-elements=".toList).map String.ofList

/-- The values that words give for the limit, in their order, if the first word is awaited as one or not. Behind two
dashes alone no option is given any more. -/
def valuesFrom : (awaited : Bool) → List String → List String
  | _, [] => []
  | true, value :: words => value :: valuesFrom false words
  | false, word :: words =>
    if word = "--" then []
    else if word = "--max-elements" then valuesFrom true words
    else (attached? word).toList ++ valuesFrom false words

/-- The values that words give for the limit, in their order: behind an equals sign or as the next word. -/
def limitValues (words : List String) : List String := valuesFrom false words

/-- The value of an option is a number. -/
def IsNumber (value : String) (limit : UInt64) : Prop := Text.readWord value.toList = .ok limit

/-! ### Words -/

section Words

variable {word name : String} {value : Option String} {words : List String}

theorem splitValue_eq (s : List Char) :
    s = (splitValue s).1.toList ++ ((splitValue s).2.map fun value => '=' :: value.toList).getD [] := by
  have hsplit := List.takeWhile_append_dropWhile (p := (· ≠ '=')) (l := s)
  have hhead := List.head?_dropWhile_not (· ≠ '=') s
  unfold splitValue
  cases hrest : s.dropWhile (· ≠ '=') with
  | nil =>
    rw [hrest] at hsplit
    simpa using hsplit.symm
  | cons c rest =>
    rw [hrest] at hsplit hhead
    have hc : c = '=' := by simpa using hhead
    subst hc
    simpa using hsplit.symm

theorem toList_of_classify (h : classify word = .long name value) :
    word.toList = '-' :: '-' :: (name.toList ++ (value.map fun value => '=' :: value.toList).getD []) := by
  unfold classify at h
  split at h
  · cases h
  · next rest _ hword =>
    cases h
    rw [hword, ← splitValue_eq]
  · cases h
  · cases h

theorem eq_of_classify_bare (h : classify word = .long limitOption none) : word = "--max-elements" := by
  apply String.toList_injective
  rw [toList_of_classify h]
  rfl

theorem attached?_eq_some_iff {v : String} :
    attached? word = some v ↔ word.toList = "--max-elements=".toList ++ v.toList := by
  rw [attached?, Option.map_eq_some_iff]
  constructor
  · rintro ⟨s, hs, rfl⟩
    obtain ⟨front, hword, hfront⟩ := List.dropPrefix?_eq_some_iff.mp hs
    rw [hword, eq_of_beq hfront, String.toList_ofList (l := s)]
  · intro hword
    exact ⟨v.toList, List.dropPrefix?_eq_some_iff.mpr ⟨_, hword, beq_self_eq_true _⟩, String.ofList_toList⟩

/-- A word with a value attached looks like the option. -/
theorem classify_of_attached {v : String} (h : attached? word = some v) :
    classify word = .long limitOption (some v) := by
  have hvalue : String.ofList v.toList = v := String.ofList_toList
  conv_rhs => rw [← hvalue]
  rw [classify, attached?_eq_some_iff.mp h]
  rfl

theorem limitValues_attached {v : String} (h : classify word = .long limitOption (some v)) (words : List String) :
    limitValues (word :: words) = v :: limitValues words := by
  have hword : attached? word = some v := by
    rw [attached?_eq_some_iff, toList_of_classify h]
    rfl
  have hseparator : word ≠ "--" := by
    rintro rfl
    cases hword
  have hbare : word ≠ "--max-elements" := by
    rintro rfl
    cases hword
  rw [limitValues, valuesFrom, if_neg hseparator, if_neg hbare, hword]
  rfl

/-- A word that is not the option is passed over. -/
theorem limitValues_other (hseparator : word ≠ "--") (h : ∀ value, classify word ≠ .long limitOption value)
    (words : List String) : limitValues (word :: words) = limitValues words := by
  have hbare : word ≠ "--max-elements" := by
    rintro rfl
    exact h none rfl
  have hattached : attached? word = none := by
    rw [Option.eq_none_iff_forall_ne_some]
    intro v hv
    exact h (some v) (classify_of_attached hv)
  rw [limitValues, valuesFrom, if_neg hseparator, if_neg hbare, hattached]
  rfl

theorem limitValues_separator (words : List String) : limitValues ("--" :: words) = [] := rfl

end Words

/-! ### Drafts -/

namespace Draft

/-- The words of a draft that have not been examined, if they are about the limit. -/
def unread (d : Draft) : List String :=
  match d.pending with
  | some (.limit none) => ["--max-elements"]
  | some (.limit (some value)) => ["--max-elements", value]
  | some (.argument _) | none => []

/-- From one draft to the next the values are examined: they are numbers, and these come in as limits. -/
def Gains (values : List String) (d d' : Draft) : Prop :=
  ∃ limits, List.Forall₂ IsNumber values limits ∧ d'.limit.toList = d.limit.toList ++ limits

variable {d d' d'' : Draft} {values more words : List String} {wanted : List Argument}

theorem gains_nil (h : d'.limit = d.limit) : Gains [] d d' :=
  ⟨[], .nil, by rw [h, List.append_nil]⟩

theorem Gains.trans (h : Gains values d d') (h' : Gains more d' d'') : Gains (values ++ more) d d'' := by
  obtain ⟨limits, hread, hlimit⟩ := h
  obtain ⟨limits', hread', hlimit'⟩ := h'
  exact ⟨limits ++ limits', List.rel_append hread hread', by rw [hlimit', hlimit, List.append_assoc]⟩

theorem Gains.keep (h : Gains values d d') (hlimit : d''.limit = d'.limit) : Gains values d d'' := by
  rw [← List.append_nil values]
  exact h.trans (gains_nil hlimit)

theorem setLimit_gains {value : String} (h : d.setLimit value = .ok d') :
    Gains [value] d d' ∧ d'.pending = d.pending := by
  unfold setLimit at h
  split at h
  · cases h
  · next hfresh =>
    have hnone : d.limit = none := by simpa using hfresh
    split at h
    · next limit hread =>
      cases h
      exact ⟨⟨[limit], .cons hread .nil, by rw [hnone]; rfl⟩, rfl⟩
    · cases h

/-- Settling a draft examines what is pending, which is not an option without its value. -/
theorem settle_gains (h : d.settle wanted = .ok d') :
    Gains (limitValues d.unread) d d' ∧ d'.pending = none ∧ d.awaitsValue = false := by
  unfold settle at h
  unfold unread awaitsValue
  cases hpending : d.pending with
  | none =>
    rw [hpending] at h
    cases h
    exact ⟨gains_nil rfl, rfl, rfl⟩
  | some pending =>
    cases pending with
    | limit value =>
      cases value with
      | none =>
        rw [hpending] at h
        cases h
      | some value =>
        rw [hpending] at h
        exact ⟨(setLimit_gains h).1, (setLimit_gains h).2, rfl⟩
    | argument value =>
      rw [hpending] at h
      simp only [addArgument] at h
      split at h
      · cases h
      · cases h
        exact ⟨gains_nil rfl, rfl, rfl⟩

/-- Whatever follows a draft that does not await a value, the values of its words come first. -/
theorem limitValues_unread_append (h : d.awaitsValue = false) (words : List String) :
    limitValues (d.unread ++ words) = limitValues d.unread ++ limitValues words := by
  unfold awaitsValue at h
  unfold unread
  cases hpending : d.pending with
  | none => rfl
  | some pending =>
    cases pending with
    | limit value =>
      cases value with
      | none =>
        rw [hpending] at h
        cases h
      | some value => rfl
    | argument value => rfl

/-- One word is taken: the values that are examined with it come off the front of those of all words. -/
def Passes (word : String) (d d' : Draft) : Prop :=
  ∃ values, Gains values d d' ∧
    ∀ words, limitValues (d.unread ++ word :: words) = values ++ limitValues (d'.unread ++ words)

/-- A word is taken once the draft before it is settled. -/
theorem passes_of_settle (values : List String) {word : String} (hsettle : d.settle wanted = .ok d')
    (hgains : Gains values d' d'')
    (hvalues : ∀ words, limitValues (word :: words) = values ++ limitValues (d''.unread ++ words)) :
    Passes word d d'' := by
  obtain ⟨hsettled, -, hawaits⟩ := settle_gains hsettle
  refine ⟨limitValues d.unread ++ values, hsettled.trans hgains, ?_⟩
  intro words
  rw [limitValues_unread_append hawaits, hvalues, List.append_assoc]

theorem takeLimit_passes {word : String} {value : Option String} (hword : classify word = .long limitOption value)
    (h : d.takeLimit wanted value = .ok d') : Passes word d d' := by
  obtain ⟨settled, hsettle, h⟩ := bind_eq_ok_iff.mp h
  have hnone : settled.pending = none := (settle_gains hsettle).2.1
  cases value with
  | some v =>
    obtain ⟨hgains, hpending⟩ := setLimit_gains h
    have hunread : d'.unread = [] := by rw [unread, hpending, hnone]
    refine passes_of_settle [v] hsettle hgains ?_
    intro words
    rw [limitValues_attached hword, hunread]
    rfl
  | none =>
    cases h
    refine passes_of_settle [] hsettle (gains_nil rfl) ?_
    intro words
    rw [eq_of_classify_bare hword]
    rfl

theorem takeStop_ne_ok {stop : Stop} {value : Option String} : d.takeStop wanted stop value ≠ .ok d' := by
  intro h
  cases value with
  | some v => cases h
  | none =>
    obtain ⟨settled, -, h⟩ := bind_eq_ok_iff.mp h
    cases h

theorem takeArgument_settles {word : String} (h : d.takeArgument wanted word = .ok d') :
    ∃ settled, d.settle wanted = .ok settled ∧ d' = { settled with pending := some (.argument word) } := by
  unfold takeArgument at h
  split at h
  · cases h
  · obtain ⟨settled, hsettle, h⟩ := bind_eq_ok_iff.mp h
    cases h
    exact ⟨settled, hsettle, rfl⟩

theorem takePretty_settles {value : Option String} (h : d.takePretty wanted value = .ok d') :
    ∃ settled, d.settle wanted = .ok settled ∧ d' = { settled with pretty := true } := by
  cases value with
  | some v => cases h
  | none =>
    obtain ⟨settled, hsettle, h⟩ := bind_eq_ok_iff.mp h
    split at h
    · cases h
    · cases h
      exact ⟨settled, hsettle, rfl⟩

/-- A word that an option awaits is kept beside it. -/
theorem passes_of_awaitsValue {word : String} (h : d.awaitsValue = true) :
    Passes word d { d with pending := some (.limit (some word)) } := by
  have hpending : d.pending = some (.limit none) := of_decide_eq_true h
  refine ⟨[], gains_nil rfl, ?_⟩
  intro words
  rw [unread, hpending]
  rfl

end Draft

open Draft

/-! ### Behind the command's name -/

section Command

variable {verb : Verb} {d d' d'' : Draft} {word : String} {words : List String}

/-- One word behind the command's name. -/
theorem takeWord_passes (hseparator : word ≠ "--") (h : takeWord verb d word = .ok d') : Passes word d d' := by
  have hother : (∀ value, classify word ≠ .long limitOption value) →
      ∀ words, limitValues (word :: words) = limitValues words := limitValues_other hseparator
  unfold takeWord at h
  split at h
  · next name value hword =>
    split at h
    · next hname => exact takeLimit_passes (hname ▸ hword) h
    · next hname =>
      split at h
      · exact absurd h takeStop_ne_ok
      · split at h
        · obtain ⟨settled, hsettle, rfl⟩ := takePretty_settles h
          have hnone : settled.pending = none := (settle_gains hsettle).2.1
          refine passes_of_settle [] hsettle (gains_nil rfl) ?_
          intro words
          rw [hother (by rw [hword]; rintro v ⟨⟩; exact hname rfl), unread, hnone]
          rfl
        · cases h
  · split at h
    · exact absurd h takeStop_ne_ok
    · cases h
  all_goals
    next hword =>
    split at h
    · next hawaits =>
      cases h
      exact passes_of_awaitsValue hawaits
    · obtain ⟨settled, hsettle, rfl⟩ := takeArgument_settles h
      refine passes_of_settle [] hsettle (gains_nil rfl) ?_
      intro words
      rw [hother (by rw [hword]; rintro v ⟨⟩)]
      rfl

/-- All words behind two dashes are arguments, and none of them gives a value. -/
theorem takeArguments_gains (h : takeArguments verb d words = .ok d') (hsettle : d'.settle verb.arguments = .ok d'') :
    Gains (limitValues d.unread) d d'' ∧ d.awaitsValue = false := by
  induction words generalizing d with
  | nil =>
    cases h
    exact ⟨(settle_gains hsettle).1, (settle_gains hsettle).2.2⟩
  | cons word words ih =>
    obtain ⟨next, hword, hrest⟩ := bind_eq_ok_iff.mp h
    obtain ⟨settled, hsettled, rfl⟩ := takeArgument_settles hword
    obtain ⟨hgains, -, hawaits⟩ := settle_gains hsettled
    obtain ⟨hafter, -⟩ := ih hrest
    rw [← List.append_nil (limitValues d.unread)]
    exact ⟨(hgains.keep rfl).trans hafter, hawaits⟩

/-- The words behind the command's name, by induction on them: each takes its values off the list. -/
theorem takeWords_gains (h : takeWords verb d words = .ok d') (hsettle : d'.settle verb.arguments = .ok d'') :
    Gains (limitValues (d.unread ++ words)) d d'' := by
  induction words generalizing d with
  | nil =>
    cases h
    rw [List.append_nil]
    exact (settle_gains hsettle).1
  | cons word words ih =>
    rw [takeWords] at h
    split at h
    · next hseparator =>
      obtain ⟨hgains, hawaits⟩ := takeArguments_gains h hsettle
      rw [limitValues_unread_append hawaits, hseparator, limitValues_separator, List.append_nil]
      exact hgains
    · next hseparator =>
      obtain ⟨next, hword, hrest⟩ := bind_eq_ok_iff.mp h
      obtain ⟨values, hgains, hvalues⟩ := takeWord_passes hseparator hword
      rw [hvalues]
      exact hgains.trans (ih hrest)

/-- The limit of a command is the value that its words give. -/
theorem readCommand_limit {i : Invocation} (h : readCommand verb words = .ok i) :
    List.Forall₂ IsNumber (limitValues words) i.limit.toList := by
  obtain ⟨d, hwords, h⟩ := bind_eq_ok_iff.mp h
  obtain ⟨settled, hsettle, h⟩ := bind_eq_ok_iff.mp h
  obtain ⟨limits, hread, hlimit⟩ := takeWords_gains hwords hsettle
  split at h
  · cases h
    rwa [show settled.limit.toList = limits from hlimit]
  · cases h

end Command

/-! ### Before the command's name -/

/-- Among limits the last one holds. -/
theorem orElse_eq_getLast? (first second : Option UInt64) :
    (second <|> first) = (first.toList ++ second.toList).getLast? := by
  cases first <;> cases second <;> rfl

theorem not_option_of_ofName? {word : String} {verb : Verb} (h : Verb.ofName? word = some verb) :
    word ≠ "--" ∧ ∀ value, classify word ≠ .long limitOption value := by
  have hname : verb.name = word := by simpa using List.find?_some h
  subst hname
  cases verb <;> exact ⟨by decide, by intro value; rintro ⟨⟩⟩

/-- The words of a command line, by induction on them: the invocation's limit is the last of those that the draft has
and those that the words give. -/
theorem readFrom_limit {d : Draft} {words : List String} {i : Invocation} (h : readFrom d words = .ok i) :
    ∃ limits, List.Forall₂ IsNumber (limitValues (d.unread ++ words)) limits ∧
      i.limit = (d.limit.toList ++ limits).getLast? := by
  have hnothing : ∀ {d : Draft}, readNothing d ≠ .ok i := by
    intro d h
    obtain ⟨settled, -, h⟩ := bind_eq_ok_iff.mp h
    cases h
  -- a word that is taken leaves the rest to the draft behind it
  have hpass : ∀ {d d' : Draft} {word : String} {words : List String}, Passes word d d' →
      (∃ limits, List.Forall₂ IsNumber (limitValues (d'.unread ++ words)) limits ∧
        i.limit = (d'.limit.toList ++ limits).getLast?) →
      ∃ limits, List.Forall₂ IsNumber (limitValues (d.unread ++ word :: words)) limits ∧
        i.limit = (d.limit.toList ++ limits).getLast? := by
    rintro d d' word words ⟨values, ⟨gained, hgained, hlimit⟩, hvalues⟩ ⟨limits, hread, hlast⟩
    refine ⟨gained ++ limits, ?_, ?_⟩
    · rw [hvalues]
      exact List.rel_append hgained hread
    · rw [hlast, hlimit, List.append_assoc]
  induction words generalizing d with
  | nil => exact absurd h hnothing
  | cons word words ih =>
    unfold readFrom at h
    split at h
    · split at h
      · exact absurd h hnothing
      · cases h
    · next name value hword =>
      split at h
      · next hname =>
        obtain ⟨next, htake, hrest⟩ := bind_eq_ok_iff.mp h
        exact hpass (takeLimit_passes (hname ▸ hword) htake) (ih hrest)
      · split at h
        · obtain ⟨next, htake, -⟩ := bind_eq_ok_iff.mp h
          exact absurd htake takeStop_ne_ok
        · split at h
          · obtain ⟨next, htake, -⟩ := bind_eq_ok_iff.mp h
            exact absurd htake takeStop_ne_ok
          · cases h
    · split at h
      · obtain ⟨next, htake, -⟩ := bind_eq_ok_iff.mp h
        exact absurd htake takeStop_ne_ok
      · split at h
        · obtain ⟨next, htake, -⟩ := bind_eq_ok_iff.mp h
          exact absurd htake takeStop_ne_ok
        · cases h
    · split at h
      · next hawaits => exact hpass (passes_of_awaitsValue hawaits) (ih h)
      · split at h
        · cases h
        · split at h
          · cases h
          · next verb hverb =>
            obtain ⟨invocation, hcommand, h⟩ := bind_eq_ok_iff.mp h
            obtain ⟨settled, hsettle, h⟩ := bind_eq_ok_iff.mp h
            cases h
            obtain ⟨⟨gained, hgained, hlimit⟩, -, hawaits⟩ := settle_gains hsettle
            obtain ⟨hseparator, hother⟩ := not_option_of_ofName? hverb
            refine ⟨gained ++ invocation.limit.toList, ?_, ?_⟩
            · rw [limitValues_unread_append hawaits, limitValues_other hseparator hother]
              exact List.rel_append hgained (readCommand_limit hcommand)
            · rw [← List.append_assoc, ← hlimit]
              exact orElse_eq_getLast? _ _

/-! ## Limits -/

theorem outcome_invocation (i : Invocation) (setting : Option String) (tree : Files.Tree) :
    (i.run setting tree).outcome = (i.command.run { limit := (i.resolveLimit setting).value } tree).outcome := by
  rw [Invocation.run, Journal.Report.outcome_bind]
  rfl

/-- **Which limit holds.** The limit of a setting is the number that the setting writes between blanks, if it writes
one below `2 ^ 64`, and 268435456 in every other case. There is one warning if the setting is there, not blank, and
writes no such number, and otherwise nothing is told. On every command line that is read, the values given for the
option write numbers below `2 ^ 64`. The last of these is the limit of the run, whatever the setting is, and then the
setting is not looked at; if there is none, the limit is that of the setting. -/
theorem limit_by_option_or_setting :
    (∀ (setting : Option String) (limit : UInt64), Limit.ofSetting setting = limit ↔
      Limit.Chooses setting limit ∨ (∀ other, ¬ Limit.Chooses setting other) ∧ limit = 268435456) ∧
    (∀ setting : Option String,
      ((∃ event ∈ Limit.settingEvents setting, event.severity = .warn) ↔ Limit.IsAmiss setting) ∧
        (Limit.settingEvents setting).length ≤ 1) ∧
    ∀ (words : List String) (i : Invocation), read words = .ok i →
      ∃ limits : List UInt64,
        List.Forall₂ (fun value limit => Text.Writes value.toList limit.toNat) (limitValues words) limits ∧
        ∀ setting : Option String,
          (i.resolveLimit setting).value = limits.getLast?.getD (Limit.ofSetting setting) ∧
          (i.resolveLimit setting).events = (if limits = [] then Limit.settingEvents setting else []) ∧
          ∀ tree, (i.run setting tree).outcome =
            (i.command.run { limit := limits.getLast?.getD (Limit.ofSetting setting) } tree).outcome := by
  refine ⟨fun setting limit => Limit.ofSetting_eq_iff, ?_, ?_⟩
  · intro setting
    obtain ⟨hamiss, hquiet⟩ := Limit.settingEvents_spec setting
    by_cases h : Limit.IsAmiss setting
    · obtain ⟨ignored, hevents⟩ := hamiss h
      rw [hevents]
      exact ⟨⟨fun _ => h, fun _ => ⟨_, List.mem_singleton_self _, rfl⟩⟩, Nat.le_refl 1⟩
    · rw [hquiet h]
      exact ⟨⟨fun ⟨_, hmem, _⟩ => absurd hmem List.not_mem_nil, fun hamiss => absurd hamiss h⟩, Nat.zero_le 1⟩
  · intro words i hread
    obtain ⟨limits, hvalues, hlimit⟩ := readFrom_limit hread
    have hlast : i.limit = limits.getLast? := hlimit
    refine ⟨limits, hvalues.imp fun value limit h => Text.readWord_eq_ok_iff.mp h, ?_⟩
    intro setting
    have hvalue : (i.resolveLimit setting).value = limits.getLast?.getD (Limit.ofSetting setting) := by
      rw [Invocation.resolveLimit, ← hlast]
      cases i.limit <;> rfl
    refine ⟨hvalue, ?_, ?_⟩
    · rw [Invocation.resolveLimit]
      cases hi : i.limit with
      | none =>
        have hnil : limits = [] := List.getLast?_eq_none_iff.mp (hlast.symm.trans hi)
        rw [if_pos hnil]
        rfl
      | some limit =>
        have hne : limits ≠ [] := by
          rintro rfl
          rw [hi] at hlast
          cases hlast
        rw [if_neg hne]
        rfl
    · intro tree
      rw [outcome_invocation, hvalue]

/-- The largest limit there is, with a plus sign and a leading zero, wins over another one in front of the command and
over the setting. -/
theorem limit_by_last_option :
    let words := ["--max-elements", "9", "dump", "p.tsf", "--max-elements=+018446744073709551615"]
    let i : Invocation := ⟨some 18446744073709551615, .dump "p.tsf" false⟩
    read words = .ok i ∧ limitValues words = ["9", "+018446744073709551615"] ∧
      ∃ limits : List UInt64,
        List.Forall₂ (fun value limit => Text.Writes value.toList limit.toNat) (limitValues words) limits ∧
          (i.resolveLimit (some "7")).value = limits.getLast?.getD 7 := by
  intro words i
  have hread : read words = .ok i := by decide +kernel
  obtain ⟨hsetting, -, hwords⟩ := limit_by_option_or_setting
  obtain ⟨limits, hvalues, hlimit⟩ := hwords words i hread
  have hseven : Limit.ofSetting (some "7") = 7 := by decide +kernel
  refine ⟨hread, by decide +kernel, limits, hvalues, ?_⟩
  rw [(hlimit (some "7")).1, hseven]

end Usage

end Polypath

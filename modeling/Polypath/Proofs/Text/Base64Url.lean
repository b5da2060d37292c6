import Mathlib.Data.List.TakeWhile
import Polypath.Proofs.Outcome
import Polypath.Proofs.Text.Ascii
import Polypath.Text.Blank

/-!
# Base64url text is read back

A byte string is cut into full groups of three bytes and a last group of one to three. The full groups are written as
the symbols of their six-bit numbers (`sextets`, `encode_append`), the last one with padding behind it. Reading takes
the text apart at the same place (`decode_append`): the symbols of the full groups give their numbers and these the
bytes (`values_map_symbol`, `joinGroups_sextets`), and the last group gives its bytes (`readTail_encode`). So

* **every byte string is read back** from its text (`decode_encode`), and
* **blanks do no harm**: no symbol is a blank, so what is trimmed off a text is what was put around it
  (`decode_trim_encode`).
-/

namespace Polypath.Text

/-! ## Blanks around a text -/

theorem trimEnd_append {s trail : List Char} (hs : ∀ c ∈ s, isBlank c = false)
    (htrail : ∀ c ∈ trail, isBlank c = true) : trimEnd (s ++ trail) = s := by
  have hblank : ∀ c ∈ trail.reverse, isBlank c = true := fun c hc => htrail c (List.mem_reverse.mp hc)
  have hkept : s.reverse.dropWhile isBlank = s.reverse := by
    rw [List.dropWhile_eq_self_iff]
    intro hl
    rw [hs _ (List.mem_reverse.mp (List.getElem_mem hl))]
    exact Bool.false_ne_true
  rw [trimEnd, List.reverse_append, List.dropWhile_append_of_pos hblank, hkept, List.reverse_reverse]

/-- A text without blanks is what is left when blanks were put around it. -/
theorem trim_append {lead s trail : List Char} (hlead : ∀ c ∈ lead, isBlank c = true)
    (hs : ∀ c ∈ s, isBlank c = false) (htrail : ∀ c ∈ trail, isBlank c = true) : trim (lead ++ s ++ trail) = s := by
  rw [trim, List.append_assoc, List.dropWhile_append_of_pos hlead]
  cases s with
  | nil =>
    rw [List.nil_append, List.dropWhile_eq_nil_iff.mpr htrail]
    rfl
  | cons c s =>
    have hc : ¬ isBlank c = true := by simp [hs c List.mem_cons_self]
    rw [List.cons_append, List.dropWhile_cons_of_neg hc, ← List.cons_append, trimEnd_append hs htrail]

namespace Base64Url

open Outcome

/-! ## Symbols -/

/-- A symbol stands for the number it was chosen for. -/
theorem value?_symbol {v : Nat} (hv : v < 64) : value? (symbol v) = some v := by
  revert v
  decide

/-- Padding is no symbol. -/
theorem symbol_ne_pad {v : Nat} (hv : v < 64) : symbol v ≠ pad := by
  intro he
  have hvalue : value? pad = some v := by rw [← he, value?_symbol hv]
  cases hvalue

/-- The characters of base64url text. -/
def IsSymbol (c : Char) : Prop := c.isAlphanum = true ∨ c = '-' ∨ c = '_' ∨ c = '='

instance (c : Char) : Decidable (IsSymbol c) := inferInstanceAs (Decidable (_ ∨ _))

theorem isSymbol_symbol (n : Nat) : IsSymbol (Char.ofNat (symbol n).toNat) := by
  by_cases hn : n < 64
  · revert n
    decide
  · have hlast : symbol n = 95 := by
      simp only [symbol]
      rw [if_neg (by omega), if_neg (by omega), if_neg (by omega), if_neg (by omega)]
      rfl
    rw [hlast]
    decide

/-- A written text has no other characters. -/
theorem isSymbol_of_mem_encode {bytes : List UInt8} {c : Char} (hc : c ∈ (ofAscii (encode bytes)).toList) :
    IsSymbol c := by
  have hpad : IsSymbol (Char.ofNat pad.toNat) := by decide
  have hall : ∀ b ∈ encode bytes, IsSymbol (Char.ofNat b.toNat) := by
    clear hc
    fun_induction encode bytes with
    | case1 a b c rest n ih => simpa [isSymbol_symbol] using ih
    | case2 a b n => simp [isSymbol_symbol, hpad]
    | case3 a n => simp [isSymbol_symbol, hpad]
    | case4 => simp
  rw [ofAscii, String.toList_ofList] at hc
  obtain ⟨b, hb, rfl⟩ := List.mem_map.mp hc
  exact hall b hb

/-! ## Full groups -/

/-- The six-bit numbers of full groups of three bytes. -/
def sextets : List UInt8 → List Nat
  | a :: b :: c :: rest =>
    let n := a.toNat * 65536 + b.toNat * 256 + c.toNat
    n / 262144 :: n / 4096 % 64 :: n / 64 % 64 :: n % 64 :: sextets rest
  | _ => []

theorem sextets_lt (bytes : List UInt8) : ∀ v ∈ sextets bytes, v < 64 := by
  fun_induction sextets bytes with
  | case1 a b c rest n ih =>
    have ha : a.toNat < 256 := a.toNat_lt
    have hb : b.toNat < 256 := b.toNat_lt
    have hc : c.toNat < 256 := c.toNat_lt
    have hn : n / 262144 < 64 := by omega
    simpa [hn, Nat.mod_lt] using ih
  | case2 => simp

theorem length_sextets_mod (bytes : List UInt8) : (sextets bytes).length % 4 = 0 := by
  fun_induction sextets bytes with
  | case1 a b c rest n ih =>
    simp only [List.length_cons]
    omega
  | case2 => rfl

/-- Full groups are written as the symbols of their numbers, whatever follows. -/
theorem encode_append (front back : List UInt8) (hfront : front.length % 3 = 0) :
    encode (front ++ back) = (sextets front).map symbol ++ encode back := by
  fun_induction sextets front with
  | case1 a b c rest n ih =>
    have hrest : rest.length % 3 = 0 := by
      simp only [List.length_cons] at hfront
      omega
    simp only [List.cons_append, encode, List.map_cons, ih hrest]
    rfl
  | case2 front hshort =>
    match front, hfront, hshort with
    | [], _, _ => rfl
    | a :: b :: c :: rest, _, hshort => exact absurd rfl (hshort a b c rest)

theorem ofNat_eq_of_mod {n : Nat} {b : UInt8} (hn : n % 256 = b.toNat) : UInt8.ofNat n = b := by
  apply UInt8.toNat_inj.mp
  rw [UInt8.toNat_ofNat']
  exact hn

/-- The bytes of full groups are got back from their numbers. -/
theorem joinGroups_sextets (front : List UInt8) (hfront : front.length % 3 = 0) :
    joinGroups (sextets front) = front := by
  fun_induction sextets front with
  | case1 a b c rest n ih =>
    have hrest : rest.length % 3 = 0 := by
      simp only [List.length_cons] at hfront
      omega
    have hn : n / 262144 * 262144 + n / 4096 % 64 * 4096 + n / 64 % 64 * 64 + n % 64 = n := by omega
    have ha : a.toNat < 256 := a.toNat_lt
    have hb : b.toNat < 256 := b.toNat_lt
    have hc : c.toNat < 256 := c.toNat_lt
    have hfirst : UInt8.ofNat (n / 65536) = a := ofNat_eq_of_mod (by omega)
    have hsecond : UInt8.ofNat (n / 256) = b := ofNat_eq_of_mod (by omega)
    have hthird : UInt8.ofNat n = c := ofNat_eq_of_mod (by omega)
    simp only [joinGroups, hn, hfirst, hsecond, hthird, ih hrest]
  | case2 front hshort =>
    match front, hfront, hshort with
    | [], _, _ => rfl
    | a :: b :: c :: rest, _, hshort => exact absurd rfl (hshort a b c rest)

theorem values_map_symbol (offset : Nat) {vs : List Nat} (hvs : ∀ v ∈ vs, v < 64) :
    values offset (vs.map symbol) = .ok vs := by
  induction vs generalizing offset with
  | nil => rfl
  | cons v vs ih =>
    have hv := value?_symbol (hvs v List.mem_cons_self)
    have hrest := ih (offset + 1) fun w hw => hvs w (List.mem_cons_of_mem _ hw)
    simp [values, hv, hrest]

/-! ## The last group -/

section LastGroup

variable (start : Nat)

theorem readTail_symbols (position : Nat) (symbols : List (UInt8 × Nat)) {vs : List Nat} (hvs : ∀ v ∈ vs, v < 64)
    (back : List UInt8) :
    readTail start position ⟨symbols, 0⟩ (vs.map symbol ++ back) =
      readTail start (position + vs.length) ⟨symbols ++ vs.map fun v => (symbol v, v), 0⟩ back := by
  induction vs generalizing position symbols with
  | nil => simp
  | cons v vs ih =>
    have hv : v < 64 := hvs v List.mem_cons_self
    have hrest := ih (position + 1) (symbols ++ [(symbol v, v)]) fun w hw => hvs w (List.mem_cons_of_mem _ hw)
    rw [List.map_cons, List.cons_append, readTail, if_neg (symbol_ne_pad hv)]
    simp only [Nat.lt_irrefl, if_false, value?_symbol hv, hrest, List.append_assoc, List.singleton_append,
      List.map_cons, List.length_cons, Nat.add_right_comm position 1, Nat.add_assoc position]

/-- Padding is counted from the third place of a group on. -/
theorem readTail_pads {position : Nat} (hposition : 2 ≤ position) (tail : Tail) (count : Nat) :
    readTail start position tail (List.replicate count pad) = .ok { tail with pads := tail.pads + count } := by
  induction count generalizing position tail with
  | zero => rfl
  | succ count ih =>
    rw [List.replicate_succ, readTail, if_pos rfl, if_neg (by omega), ih (by omega)]
    simp [Nat.add_assoc, Nat.add_comm 1]

/-- Two or more symbols with padding behind them are told apart. -/
theorem readTail_group (vs : List Nat) (hvs : ∀ v ∈ vs, v < 64) (hlength : 2 ≤ vs.length) (pads : Nat) :
    readTail start 0 ⟨[], 0⟩ (vs.map symbol ++ List.replicate pads pad) =
      .ok ⟨vs.map fun v => (symbol v, v), pads⟩ := by
  rw [readTail_symbols start 0 [] hvs, readTail_pads start (by omega)]
  simp

/-- The last group gives its bytes back. -/
theorem readTail_encode {last : List UInt8} (hne : last ≠ []) (hlength : last.length ≤ 3) :
    readTail start 0 ⟨[], 0⟩ (encode last) >>= joinTail start = .ok last := by
  match last with
  | [a] =>
    have ha : a.toNat < 256 := a.toNat_lt
    have hgroup := readTail_group start [a.toNat * 16 / 64, a.toNat * 16 % 64] (by simp; omega) (by simp) 2
    have hunused : a.toNat * 16 % 64 % 16 = 0 := by omega
    have hbyte : UInt8.ofNat (a.toNat * 16 / 64 * 4 + a.toNat * 16 % 64 / 16) = a := ofNat_eq_of_mod (by omega)
    refine (congrArg (· >>= joinTail start) hgroup).trans ?_
    simp [joinTail, hunused, hbyte]
  | [a, b] =>
    have ha : a.toNat < 256 := a.toNat_lt
    have hb : b.toNat < 256 := b.toNat_lt
    obtain ⟨n, hn⟩ : ∃ n, n = (a.toNat * 256 + b.toNat) * 4 := ⟨_, rfl⟩
    have hgroup := readTail_group start [n / 4096, n / 64 % 64, n % 64] (by simp; omega) (by simp) 1
    have hunused : n % 64 % 4 = 0 := by omega
    have hfirst : UInt8.ofNat (n / 4096 * 4 + n / 64 % 64 / 16) = a := ofNat_eq_of_mod (by omega)
    have hsecond : UInt8.ofNat (n / 64 % 64 * 16 + n % 64 / 4) = b := ofNat_eq_of_mod (by omega)
    have hencode : encode [a, b] = [n / 4096, n / 64 % 64, n % 64].map symbol ++ List.replicate 1 pad := by
      rw [hn]
      rfl
    rw [hencode, hgroup, ok_bind]
    simp [joinTail, hunused, hfirst, hsecond]
  | [a, b, c] =>
    have hgroup := readTail_group start (sextets [a, b, c]) (sextets_lt _) (by simp [sextets]) 0
    have hencode : encode [a, b, c] = (sextets [a, b, c]).map symbol ++ List.replicate 0 pad :=
      encode_append [a, b, c] [] (by simp)
    rw [hencode, hgroup, ok_bind]
    exact congrArg Except.ok (joinGroups_sextets [a, b, c] (by simp))

end LastGroup

/-! ## Whole texts -/

/-- The last group of a text of full groups and four more bytes starts behind the full groups. -/
theorem tailStart_add_four {length : Nat} (hlength : length % 4 = 0) : tailStart (length + 4) = length := by
  unfold tailStart
  omega

/-- A text of whole groups of four bytes is taken apart in front of the last one. -/
theorem decode_append {vs : List Nat} (hvs : ∀ v ∈ vs, v < 64) (hlength : vs.length % 4 = 0) {back : List UInt8}
    (hback : back.length = 4) :
    decode (vs.map symbol ++ back) =
      (readTail vs.length 0 ⟨[], 0⟩ back >>= joinTail vs.length) >>= fun last => .ok (joinGroups vs ++ last) := by
  have htext : (vs.map symbol ++ back).length = vs.length + 4 := by simp [hback]
  have hlone : checkLoneByte (vs.map symbol ++ back) = .ok () := by
    unfold checkLoneByte
    split
    · next b hb =>
      rw [if_neg]
      rintro ⟨hmod, -⟩
      omega
    · rfl
  have hstart : tailStart (vs.map symbol ++ back).length = vs.length := by rw [htext, tailStart_add_four hlength]
  have hfront : (vs.map symbol ++ back).take vs.length = vs.map symbol := List.take_left' (List.length_map _)
  have hrest : (vs.map symbol ++ back).drop vs.length = back := List.drop_left' (List.length_map _)
  simp only [decode, hlone, ok_bind, hstart, hfront, hrest, values_map_symbol 0 hvs, pure_eq_ok]
  cases readTail vs.length 0 ⟨[], 0⟩ back with
  | ok tail => rfl
  | error fault => rfl

theorem length_encode_last {last : List UInt8} (hne : last ≠ []) (hlength : last.length ≤ 3) :
    (encode last).length = 4 := by
  match last with
  | [_] | [_, _] | [_, _, _] => rfl

/-- **Every byte string is read back from its text.** -/
theorem decode_encode (bytes : List UInt8) : decode (encode bytes) = .ok bytes := by
  by_cases hne : bytes = []
  · rw [hne]
    rfl
  · -- all that does not belong to the last group of one to three bytes
    obtain ⟨count, hcount⟩ : ∃ count, count = (bytes.length - 1) / 3 * 3 := ⟨_, rfl⟩
    have hpos : 0 < bytes.length := List.length_pos_iff.mpr hne
    have hfront : (bytes.take count).length % 3 = 0 := by
      rw [List.length_take]
      omega
    have hlast : (bytes.drop count).length ≤ 3 := by
      rw [List.length_drop]
      omega
    have hlastne : bytes.drop count ≠ [] := by
      rw [ne_eq, List.drop_eq_nil_iff]
      omega
    calc decode (encode bytes)
        = decode ((sextets (bytes.take count)).map symbol ++ encode (bytes.drop count)) := by
          rw [← encode_append _ _ hfront, List.take_append_drop]
      _ = .ok (joinGroups (sextets (bytes.take count)) ++ bytes.drop count) := by
          rw [decode_append (sextets_lt _) (length_sextets_mod _) (length_encode_last hlastne hlast),
            readTail_encode _ hlastne hlast, ok_bind]
      _ = .ok bytes := by rw [joinGroups_sextets _ hfront, List.take_append_drop]

theorem toNat_of_isAlphanum {c : Char} (hc : c.isAlphanum = true) :
    (65 ≤ c.toNat ∧ c.toNat ≤ 90) ∨ (97 ≤ c.toNat ∧ c.toNat ≤ 122) ∨ 48 ≤ c.toNat ∧ c.toNat ≤ 57 := by
  unfold Char.isAlphanum Char.isAlpha Char.isUpper Char.isLower Char.isDigit at hc
  simp only [Bool.or_eq_true, Bool.and_eq_true, decide_eq_true_eq, ge_iff_le, UInt32.le_iff_toNat_le] at hc
  change ((65 ≤ c.toNat ∧ c.toNat ≤ 90) ∨ 97 ≤ c.toNat ∧ c.toNat ≤ 122) ∨ 48 ≤ c.toNat ∧ c.toNat ≤ 57 at hc
  rwa [or_assoc] at hc

/-- The characters of base64url text lie between the dash and the small letters, where there is no blank. -/
theorem IsSymbol.isBlank_eq_false {c : Char} (hc : IsSymbol c) : isBlank c = false := by
  have hrange : 45 ≤ c.toNat ∧ c.toNat ≤ 122 := by
    rcases hc with halpha | rfl | rfl | rfl
    · have := toNat_of_isAlphanum halpha
      omega
    · decide
    · decide
    · decide
  simp only [isBlank, Bool.or_eq_false_iff, Bool.and_eq_false_iff, decide_eq_false_iff_not]
  omega

/-- **Blanks do no harm.** A written text is read back from between blanks. -/
theorem decode_trim_encode (bytes : List UInt8) (lead trail : List Char) (hlead : ∀ c ∈ lead, isBlank c = true)
    (htrail : ∀ c ∈ trail, isBlank c = true) :
    decode (toUtf8 (trim (lead ++ (ofAscii (encode bytes)).toList ++ trail))) = .ok bytes := by
  have hs : ∀ c ∈ (ofAscii (encode bytes)).toList, isBlank c = false := fun c hc =>
    (isSymbol_of_mem_encode hc).isBlank_eq_false
  rw [trim_append hlead hs htrail, toUtf8_encode, decode_encode]

end Base64Url

end Polypath.Text

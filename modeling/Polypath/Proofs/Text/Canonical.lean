import Mathlib.Algebra.Ring.Nat
import Polypath.Proofs.Text.Base64Url

/-!
# Bytes have one text

Symbols and padding *fit* if they make up whole groups of four and set no bit that no byte uses (`Fits`). What fits is
the text of its bytes (`encode_joinAll`), and only what fits is read (`fits_of_decode`). The latter takes the reader
apart: the symbols of the full groups are those of their values (`values_eq_ok`), the last group is symbols with padding
behind them (`readTail_eq_ok`), and its checks are those of `Fits` (`joinTail_eq_ok`). So

* **a text that is read is the text of its bytes** (`decode_eq_ok_iff`), and
* **a text is refused exactly for a fault of spelling** (`misspelled_iff`): a character that is not in the alphabet, a
  blank between the symbols, a symbol behind padding, padding that is missing or too much, or unused bits that are set.
-/

namespace Polypath.Text.Base64Url

open Outcome

/-! ## Symbols and padding that fit -/

/-- Six-bit numbers whose symbols, with so much padding behind them, make up whole groups of four. Each padding byte
leaves two bits of the last number unused, and these are zero. -/
structure Fits (vs : List Nat) (pads : Nat) : Prop where
  lt : ∀ v ∈ vs, v < 64
  pads_le : pads ≤ 2
  whole : (vs.length + pads) % 4 = 0
  unused : ∀ v ∈ vs.getLast?, v % 4 ^ pads = 0

/-- The bytes of six-bit numbers in groups of four, the last of which may be short. -/
def joinAll : List Nat → List UInt8
  | a :: b :: c :: d :: rest => joinGroups [a, b, c, d] ++ joinAll rest
  | [a, b, c] => [UInt8.ofNat (a * 4 + b / 16), UInt8.ofNat (b * 16 + c / 4)]
  | [a, b] => [UInt8.ofNat (a * 4 + b / 16)]
  | _ => []

theorem fits_nil : Fits [] 0 where
  lt := by simp
  pads_le := Nat.zero_le 2
  whole := rfl
  unused := by simp

/-- Full groups in front of what fits change nothing. -/
theorem fits_append_iff {front back : List Nat} {pads : Nat} (hfront : front.length % 4 = 0) :
    Fits (front ++ back) pads ↔ (∀ v ∈ front, v < 64) ∧ Fits back pads := by
  constructor
  · rintro ⟨hlt, hle, hwhole, hunused⟩
    refine ⟨fun v hv => hlt v (List.mem_append_left _ hv), fun v hv => hlt v (List.mem_append_right _ hv), hle, ?_, ?_⟩
    · rw [List.length_append] at hwhole
      omega
    · intro v hv
      apply hunused v
      rw [List.getLast?_append, hv]
      rfl
  · rintro ⟨hlt, hback⟩
    refine ⟨fun v hv => ?_, hback.pads_le, ?_, fun v hv => ?_⟩
    · rcases List.mem_append.mp hv with h | h
      · exact hlt v h
      · exact hback.lt v h
    · have hwhole := hback.whole
      rw [List.length_append]
      omega
    · rw [List.getLast?_append] at hv
      cases hlast : back.getLast? with
      | some w =>
        rw [hlast] at hv
        obtain rfl : w = v := Option.some.inj hv
        exact hback.unused w hlast
      | none =>
        -- nothing is behind the full groups, so there is no padding
        have hwhole := hback.whole
        have hle := hback.pads_le
        rw [List.getLast?_eq_none_iff.mp hlast, List.length_nil] at hwhole
        have hpads : pads = 0 := by omega
        rw [hpads, Nat.pow_zero, Nat.mod_one]

/-- A full group is written as the symbols it is joined from. -/
theorem encode_joinGroups {a b c d : Nat} (ha : a < 64) (hb : b < 64) (hc : c < 64) (hd : d < 64) (rest : List UInt8) :
    encode (joinGroups [a, b, c, d] ++ rest) = [a, b, c, d].map symbol ++ encode rest := by
  obtain ⟨n, hn⟩ : ∃ n, n = a * 262144 + b * 4096 + c * 64 + d := ⟨_, rfl⟩
  have hfirst : (UInt8.ofNat (n / 65536)).toNat = n / 65536 % 256 := UInt8.toNat_ofNat'
  have hsecond : (UInt8.ofNat (n / 256)).toNat = n / 256 % 256 := UInt8.toNat_ofNat'
  have hthird : (UInt8.ofNat n).toNat = n % 256 := UInt8.toNat_ofNat'
  have hsum : n / 65536 % 256 * 65536 + n / 256 % 256 * 256 + n % 256 = n := by omega
  have hsymbols : n / 262144 = a ∧ n / 4096 % 64 = b ∧ n / 64 % 64 = c ∧ n % 64 = d := by omega
  simp only [joinGroups, ← hn, List.cons_append, List.nil_append, encode, hfirst, hsecond, hthird, hsum, hsymbols,
    List.map_cons, List.map_nil]

/-- **What fits is the text of its bytes.** -/
theorem encode_joinAll {vs : List Nat} {pads : Nat} (hvs : Fits vs pads) :
    encode (joinAll vs) = vs.map symbol ++ List.replicate pads pad := by
  fun_induction joinAll vs with
  | case1 a b c d rest ih =>
    have hfour : [a, b, c, d].length % 4 = 0 := by simp
    obtain ⟨hlt, hrest⟩ := (fits_append_iff hfour).mp hvs
    simp only [List.mem_cons, List.not_mem_nil, or_false, forall_eq_or_imp, forall_eq] at hlt
    obtain ⟨ha, hb, hc, hd⟩ := hlt
    rw [encode_joinGroups ha hb hc hd, ih hrest]
    rfl
  | case2 a b c =>
    obtain ⟨hlt, hle, hwhole, hunused⟩ := hvs
    simp only [List.mem_cons, List.not_mem_nil, or_false, forall_eq_or_imp, forall_eq] at hlt
    obtain ⟨ha, hb, hc⟩ := hlt
    obtain rfl : pads = 1 := by
      simp only [List.length_cons, List.length_nil] at hwhole
      omega
    have hzero : c % 4 = 0 := hunused c rfl
    have hfirst : (UInt8.ofNat (a * 4 + b / 16)).toNat = (a * 4 + b / 16) % 256 := UInt8.toNat_ofNat'
    have hsecond : (UInt8.ofNat (b * 16 + c / 4)).toNat = (b * 16 + c / 4) % 256 := UInt8.toNat_ofNat'
    have hsum : ((a * 4 + b / 16) % 256 * 256 + (b * 16 + c / 4) % 256) * 4 = a * 4096 + b * 64 + c := by omega
    have hsymbols : (a * 4096 + b * 64 + c) / 4096 = a ∧ (a * 4096 + b * 64 + c) / 64 % 64 = b ∧
        (a * 4096 + b * 64 + c) % 64 = c := by omega
    simp only [encode, hfirst, hsecond, hsum, hsymbols]
    rfl
  | case3 a b =>
    obtain ⟨hlt, hle, hwhole, hunused⟩ := hvs
    simp only [List.mem_cons, List.not_mem_nil, or_false, forall_eq_or_imp, forall_eq] at hlt
    obtain ⟨ha, hb⟩ := hlt
    obtain rfl : pads = 2 := by
      simp only [List.length_cons, List.length_nil] at hwhole
      omega
    have hzero : b % 16 = 0 := hunused b rfl
    have hfirst : (UInt8.ofNat (a * 4 + b / 16)).toNat = (a * 4 + b / 16) % 256 := UInt8.toNat_ofNat'
    have hsymbols : (a * 4 + b / 16) % 256 * 16 / 64 = a ∧ (a * 4 + b / 16) % 256 * 16 % 64 = b := by omega
    simp only [encode, hfirst, hsymbols]
    rfl
  | case4 vs hfour hthree htwo =>
    obtain ⟨hlt, hle, hwhole, hunused⟩ := hvs
    rcases vs with _ | ⟨a, _ | ⟨b, _ | ⟨c, _ | ⟨d, rest⟩⟩⟩⟩
    · obtain rfl : pads = 0 := by
        simp only [List.length_nil] at hwhole
        omega
      rfl
    · simp only [List.length_cons, List.length_nil] at hwhole
      omega
    · exact absurd rfl (htwo a b)
    · exact absurd rfl (hthree a b c)
    · exact absurd rfl (hfour a b c d rest)

/-! ## Taking the reader apart -/

/-- Only the symbol of a number stands for it. -/
theorem symbol_of_value? {b : UInt8} {v : Nat} (hb : value? b = some v) : v < 64 ∧ symbol v = b := by
  have hlt : b.toNat < 256 := b.toNat_lt
  simp only [value?] at hb
  rw [← UInt8.toNat_inj, symbol, UInt8.toNat_ofNat']
  -- one range of the alphabet after the other
  split_ifs at hb <;> cases hb <;> refine ⟨by omega, ?_⟩ <;> split_ifs <;> omega

theorem values_eq_ok {offset : Nat} {text : List UInt8} {vs : List Nat} (hv : values offset text = .ok vs) :
    text = vs.map symbol ∧ ∀ v ∈ vs, v < 64 := by
  induction text generalizing offset vs with
  | nil =>
    cases hv
    exact ⟨rfl, by simp⟩
  | cons b text ih =>
    unfold values at hv
    split at hv
    · cases hv
    · next v hb =>
      obtain ⟨hlt, rfl⟩ := symbol_of_value? hb
      cases hrest : values (offset + 1) text with
      | error fault =>
        rw [hrest] at hv
        cases hv
      | ok ws =>
        rw [hrest] at hv
        cases hv
        obtain ⟨rfl, hws⟩ := ih hrest
        exact ⟨rfl, List.forall_mem_cons.mpr ⟨hlt, hws⟩⟩

/-- The last group is symbols with padding behind them. Once there is padding no more symbols come, and there is none
before the third place. -/
theorem readTail_eq_ok {start position : Nat} {tail after : Tail} {text : List UInt8}
    (hr : readTail start position tail text = .ok after) :
    ∃ vs pads, text = vs.map symbol ++ List.replicate pads pad ∧ (∀ v ∈ vs, v < 64) ∧ (0 < tail.pads → vs = []) ∧
      (0 < pads → 2 ≤ position + vs.length) ∧
      after = ⟨tail.symbols ++ vs.map fun v => (symbol v, v), tail.pads + pads⟩ := by
  induction text generalizing position tail with
  | nil =>
    cases hr
    exact ⟨[], 0, rfl, by simp, fun _ => rfl, by simp, by simp⟩
  | cons b text ih =>
    unfold readTail at hr
    split at hr
    · next hpad =>
      split at hr
      · cases hr
      · next hposition =>
        obtain ⟨vs, pads, htext, -, hnone, -, rfl⟩ := ih hr
        obtain rfl : vs = [] := hnone (Nat.succ_pos _)
        refine ⟨[], pads + 1, ?_, by simp, fun _ => rfl, by simp; omega, ?_⟩
        · rw [hpad, htext]
          rfl
        · simp [Nat.add_assoc, Nat.add_comm 1]
    · split at hr
      · cases hr
      · next hnopads =>
        split at hr
        · cases hr
        · next v hb =>
          obtain ⟨hlt, rfl⟩ := symbol_of_value? hb
          obtain ⟨vs, pads, htext, hvs, -, hplace, rfl⟩ := ih hr
          refine ⟨v :: vs, pads, ?_, List.forall_mem_cons.mpr ⟨hlt, hvs⟩, fun h => absurd h hnopads, fun h => ?_, ?_⟩
          · rw [htext]
            rfl
          · have := hplace h
            rw [List.length_cons]
            omega
          · simp

/-- The last group is accepted only if it fits. -/
theorem joinTail_eq_ok {start pads : Nat} {vs : List Nat} {last : List UInt8} (hvs : ∀ v ∈ vs, v < 64)
    (hroom : vs.length + pads ≤ 4) (hplace : 0 < pads → 2 ≤ vs.length)
    (hj : joinTail start ⟨vs.map fun v => (symbol v, v), pads⟩ = .ok last) : Fits vs pads ∧ last = joinAll vs := by
  match vs with
  | [] =>
    obtain rfl : pads = 0 := by
      simp only [List.length_nil] at hplace
      omega
    cases hj
    exact ⟨fits_nil, rfl⟩
  | [a] => cases hj
  | [a, b] =>
    simp only [joinTail, List.map_cons, List.map_nil, refuse_eq_ok_iff, not_not, Except.ok.injEq] at hj
    obtain ⟨rfl, hunused, rfl⟩ := hj
    exact ⟨⟨hvs, Nat.le_refl 2, by simp, by simpa using hunused⟩, rfl⟩
  | [a, b, c] =>
    simp only [joinTail, List.map_cons, List.map_nil, refuse_eq_ok_iff, not_not, Except.ok.injEq] at hj
    obtain ⟨rfl, hunused, rfl⟩ := hj
    exact ⟨⟨hvs, by omega, by simp, by simpa using hunused⟩, rfl⟩
  | a :: b :: c :: d :: rest =>
    simp only [List.length_cons] at hroom
    obtain rfl : rest = [] := List.eq_nil_of_length_eq_zero (by omega)
    obtain rfl : pads = 0 := by
      simp only [List.length_nil] at hroom
      omega
    cases hj
    exact ⟨⟨hvs, by omega, by simp, by simp [Nat.mod_one]⟩, rfl⟩

theorem joinAll_append {front : List Nat} (hfront : front.length % 4 = 0) (back : List Nat) :
    joinAll (front ++ back) = joinGroups front ++ joinAll back := by
  fun_induction joinGroups front with
  | case1 a b c d rest n ih =>
    have hrest : rest.length % 4 = 0 := by
      simp only [List.length_cons] at hfront
      omega
    simp only [List.cons_append, joinAll, ih hrest, joinGroups, List.nil_append]
    rfl
  | case2 front hshort =>
    rcases front with _ | ⟨a, _ | ⟨b, _ | ⟨c, _ | ⟨d, rest⟩⟩⟩⟩
    · rfl
    · cases hfront
    · cases hfront
    · cases hfront
    · exact absurd rfl (hshort a b c d rest)

/-- **Only what fits is read**, and it is read as its bytes. -/
theorem fits_of_decode {text bytes : List UInt8} (hd : decode text = .ok bytes) :
    ∃ vs pads, Fits vs pads ∧ text = vs.map symbol ++ List.replicate pads pad ∧ bytes = joinAll vs := by
  simp only [decode, bind_eq_ok_iff, pure_eq_ok, Except.ok.injEq] at hd
  obtain ⟨-, -, front, hfront, tail, htail, last, hlast, rfl⟩ := hd
  obtain ⟨start, hstart⟩ : ∃ start, start = tailStart text.length := ⟨_, rfl⟩
  rw [← hstart] at hfront htail hlast
  obtain ⟨hfronttext, hfrontlt⟩ := values_eq_ok hfront
  obtain ⟨vs, pads, htailtext, hvs, -, hplace, rfl⟩ := readTail_eq_ok htail
  -- the last group starts at a multiple of four and has at most four bytes
  have hle : start ≤ text.length ∧ start % 4 = 0 ∧ text.length ≤ start + 4 := by
    rw [hstart, tailStart]
    omega
  have hfrontlength : front.length = start := by
    rw [← List.length_map (f := symbol), ← hfronttext, List.length_take_of_le hle.1]
  have htaillength : vs.length + pads = text.length - start := by
    rw [← List.length_drop, htailtext, List.length_append, List.length_map, List.length_replicate]
  simp only [List.nil_append, Nat.zero_add] at hlast hplace
  obtain ⟨hfits, rfl⟩ := joinTail_eq_ok hvs (by omega) hplace hlast
  have hfour : front.length % 4 = 0 := by omega
  refine ⟨front ++ vs, pads, (fits_append_iff hfour).mpr ⟨hfrontlt, hfits⟩, ?_, (joinAll_append hfour vs).symm⟩
  rw [List.map_append, List.append_assoc, ← hfronttext, ← htailtext, List.take_append_drop]

/-- **A text that is read is the text of its bytes.** -/
theorem decode_eq_ok_iff {text bytes : List UInt8} : decode text = .ok bytes ↔ text = encode bytes := by
  constructor
  · intro hd
    obtain ⟨vs, pads, hfits, rfl, rfl⟩ := fits_of_decode hd
    rw [encode_joinAll hfits]
  · rintro rfl
    exact decode_encode bytes

/-! ## The alphabet -/

/-- The characters of the alphabet, each at the place of its six-bit number. -/
def alphabet : List Char := "ABCDEFGHIJKLMNOPQRSTUVWXYZabcdefghijklmnopqrstuvwxyz0123456789-_".toList

/-- The character of a six-bit number. -/
def letter (v : Nat) : Char := Char.ofNat (symbol v).toNat

theorem getElem?_alphabet_eq_some_iff {v : Nat} {c : Char} : alphabet[v]? = some c ↔ v < 64 ∧ letter v = c := by
  have halphabet : alphabet = (List.range 64).map letter := rfl
  rw [halphabet, List.getElem?_map, Option.map_eq_some_iff]
  simp only [List.getElem?_eq_some_iff, List.length_range, List.getElem_range]
  constructor
  · rintro ⟨_, ⟨hv, rfl⟩, hc⟩
    exact ⟨hv, hc⟩
  · rintro ⟨hv, hc⟩
    exact ⟨v, ⟨hv, rfl⟩, hc⟩

theorem letter_ne_pad {v : Nat} (hv : v < 64) : letter v ≠ '=' := by
  revert v
  decide

theorem letter_injective {v w : Nat} (hv : v < 64) (hw : w < 64) (h : letter v = letter w) : v = w := by
  have hsymbol : [symbol v] = [symbol w] := by
    rw [← utf8EncodeChar_ofNat (symbol_lt v), ← utf8EncodeChar_ofNat (symbol_lt w)]
    exact congrArg String.utf8EncodeChar h
  have hvalue : some v = some w := by
    rw [← value?_symbol hv, ← value?_symbol hw, List.singleton_inj.mp hsymbol]
  exact Option.some.inj hvalue

/-- Other than the padding, the characters of a text are those of six-bit numbers. -/
theorem IsSymbol.exists_letter {c : Char} (hc : IsSymbol c) (hpad : c ≠ '=') : ∃ v < 64, letter v = c := by
  rcases hc with halpha | rfl | rfl | rfl
  · have hrange := toNat_of_isAlphanum halpha
    have hbyte : (UInt8.ofNat c.toNat).toNat = c.toNat := by
      rw [UInt8.toNat_ofNat']
      omega
    obtain ⟨v, hv⟩ : ∃ v, value? (UInt8.ofNat c.toNat) = some v := by
      simp only [value?, hbyte]
      rcases hrange with h | h | h
      · exact ⟨_, if_pos h⟩
      · rw [if_neg (by omega)]
        exact ⟨_, if_pos h⟩
      · rw [if_neg (by omega), if_neg (by omega)]
        exact ⟨_, if_pos h⟩
    obtain ⟨hlt, hsymbol⟩ := symbol_of_value? hv
    refine ⟨v, hlt, ?_⟩
    rw [letter, hsymbol, hbyte, Char.ofNat_toNat]
  · exact ⟨62, by decide, rfl⟩
  · exact ⟨63, by decide, rfl⟩
  · exact absurd rfl hpad

/-! ## Faults of spelling -/

/-- The text up to the first padding. -/
def symbolsOf (text : List Char) : List Char := text.takeWhile (· ≠ '=')

/-- The text from the first padding on. -/
def paddingOf (text : List Char) : List Char := text.dropWhile (· ≠ '=')

/-- What can be wrong with the spelling of a text. -/
inductive Misspelled (text : List Char) : Prop
  /-- A character that is neither in the alphabet nor padding. -/
  | foreign {c : Char} : c ∈ text → ¬ IsSymbol c → Misspelled text
  /-- A blank. -/
  | blank {c : Char} : c ∈ text → isBlank c = true → Misspelled text
  /-- Something else behind padding. -/
  | resumed {c : Char} : c ∈ paddingOf text → c ≠ '=' → Misspelled text
  /-- Padding that is missing or too much. -/
  | padding : ¬ ((paddingOf text).length ≤ 2 ∧ text.length % 4 = 0) → Misspelled text
  /-- Bits of the last symbol that are set and that no byte uses, two for each padding character. -/
  | unusedBits {c : Char} {v : Nat} : (symbolsOf text).getLast? = some c → alphabet[v]? = some c →
      v % 4 ^ (paddingOf text).length ≠ 0 → Misspelled text

theorem symbolsOf_append {symbols : List Char} (hsymbols : ∀ c ∈ symbols, c ≠ '=') (pads : Nat) :
    symbolsOf (symbols ++ List.replicate pads '=') = symbols := by
  have hall : ∀ c ∈ symbols, decide (c ≠ '=') = true := fun c hc => decide_eq_true (hsymbols c hc)
  rw [symbolsOf, List.takeWhile_append_of_pos hall]
  cases pads with
  | zero => simp
  | succ pads => simp [List.replicate_succ]

theorem paddingOf_append {symbols : List Char} (hsymbols : ∀ c ∈ symbols, c ≠ '=') (pads : Nat) :
    paddingOf (symbols ++ List.replicate pads '=') = List.replicate pads '=' := by
  have hall : ∀ c ∈ symbols, decide (c ≠ '=') = true := fun c hc => decide_eq_true (hsymbols c hc)
  rw [paddingOf, List.dropWhile_append_of_pos hall]
  cases pads with
  | zero => simp
  | succ pads => simp [List.replicate_succ]

/-- The text of numbers and padding that fit has no fault. -/
theorem Fits.not_misspelled {vs : List Nat} {pads : Nat} (hvs : Fits vs pads) :
    ¬ Misspelled (vs.map letter ++ List.replicate pads '=') := by
  have hletters : ∀ c ∈ vs.map letter, c ≠ '=' := by
    intro c hc
    obtain ⟨v, hv, rfl⟩ := List.mem_map.mp hc
    exact letter_ne_pad (hvs.lt v hv)
  have hsymbol : ∀ c ∈ vs.map letter ++ List.replicate pads '=', IsSymbol c := by
    intro c hc
    rcases List.mem_append.mp hc with h | h
    · obtain ⟨v, -, rfl⟩ := List.mem_map.mp h
      exact isSymbol_symbol v
    · rw [List.eq_of_mem_replicate h]
      exact .inr (.inr (.inr rfl))
  have hpadding := paddingOf_append hletters pads
  rintro (⟨hc, hforeign⟩ | ⟨hc, hblank⟩ | ⟨hc, hne⟩ | hpads | ⟨hlast, hv, hbits⟩)
  · exact hforeign (hsymbol _ hc)
  · rw [(hsymbol _ hc).isBlank_eq_false] at hblank
    cases hblank
  · rw [hpadding] at hc
    exact hne (List.eq_of_mem_replicate hc)
  · apply hpads
    rw [hpadding, List.length_append, List.length_map, List.length_replicate]
    exact ⟨hvs.pads_le, hvs.whole⟩
  · rw [symbolsOf_append hletters, List.getLast?_map, Option.map_eq_some_iff] at hlast
    obtain ⟨w, hw, rfl⟩ := hlast
    obtain ⟨hlt, hletter⟩ := getElem?_alphabet_eq_some_iff.mp hv
    rw [letter_injective hlt (hvs.lt w (List.mem_of_getLast? hw)) hletter, hpadding, List.length_replicate] at hbits
    exact hbits (hvs.unused w hw)

theorem exists_letters {symbols : List Char} (hsymbols : ∀ c ∈ symbols, ∃ v < 64, letter v = c) :
    ∃ vs : List Nat, (∀ v ∈ vs, v < 64) ∧ symbols = vs.map letter := by
  induction symbols with
  | nil => exact ⟨[], by simp, rfl⟩
  | cons c symbols ih =>
    obtain ⟨⟨v, hv, rfl⟩, hrest⟩ := List.forall_mem_cons.mp hsymbols
    obtain ⟨vs, hvs, rfl⟩ := ih hrest
    exact ⟨v :: vs, List.forall_mem_cons.mpr ⟨hv, hvs⟩, rfl⟩

/-- A text without a fault is the text of numbers and padding that fit. -/
theorem exists_fits_of_not_misspelled {text : List Char} (htext : ¬ Misspelled text) :
    ∃ vs pads, Fits vs pads ∧ text = vs.map letter ++ List.replicate pads '=' := by
  have hsplit : symbolsOf text ++ paddingOf text = text := List.takeWhile_append_dropWhile
  have hletters : ∀ c ∈ symbolsOf text, ∃ v < 64, letter v = c := by
    intro c hc
    have hmem : c ∈ text := hsplit ▸ List.mem_append_left _ hc
    have hsymbol : IsSymbol c := Classical.not_not.mp fun h => htext (.foreign hmem h)
    have hne := List.mem_takeWhile_imp hc
    exact hsymbol.exists_letter (of_decide_eq_true hne)
  obtain ⟨vs, hlt, hvs⟩ := exists_letters hletters
  have hpadding : paddingOf text = List.replicate (paddingOf text).length '=' :=
    List.eq_replicate_of_mem fun c hc => Classical.not_not.mp fun h => htext (.resumed hc h)
  obtain ⟨hle, hwhole⟩ := Classical.not_not.mp fun h => htext (.padding h)
  refine ⟨vs, (paddingOf text).length, ⟨hlt, hle, ?_, fun v hv => ?_⟩, ?_⟩
  · rw [← hsplit, List.length_append, hvs, List.length_map] at hwhole
    exact hwhole
  · apply Classical.not_not.mp
    intro hbits
    have hlast : (symbolsOf text).getLast? = some (letter v) := by
      rw [hvs, List.getLast?_map, hv]
      rfl
    have hplace : alphabet[v]? = some (letter v) :=
      getElem?_alphabet_eq_some_iff.mpr ⟨hlt v (List.mem_of_getLast? hv), rfl⟩
    exact htext (.unusedBits hlast hplace hbits)
  · rw [← hpadding, ← hvs, hsplit]

/-! ## Texts that are read -/

theorem toList_ofAscii_encode {vs : List Nat} {pads : Nat} (hvs : Fits vs pads) :
    (ofAscii (encode (joinAll vs))).toList = vs.map letter ++ List.replicate pads '=' := by
  rw [encode_joinAll hvs, ofAscii, String.toList_ofList, List.map_append, List.map_map, List.map_replicate]
  rfl

/-- The bytes of a text are read exactly if it is the text that is written for what is read. -/
theorem decode_toUtf8_eq_ok_iff {text : List Char} {bytes : List UInt8} :
    decode (toUtf8 text) = .ok bytes ↔ text = (ofAscii (encode bytes)).toList := by
  rw [decode_eq_ok_iff]
  constructor
  · intro h
    apply toUtf8_injective
    rw [toUtf8_encode, h]
  · rintro rfl
    exact toUtf8_encode bytes

/-- **A text is refused exactly for a fault of spelling.** -/
theorem misspelled_iff {text : List Char} : Misspelled text ↔ ∃ fault, decode (toUtf8 text) = .error fault := by
  constructor
  · intro hmis
    cases hd : decode (toUtf8 text) with
    | error fault => exact ⟨fault, rfl⟩
    | ok bytes =>
      obtain ⟨vs, pads, hfits, htext, rfl⟩ := fits_of_decode hd
      rw [decode_toUtf8_eq_ok_iff.mp hd, toList_ofAscii_encode hfits] at hmis
      exact absurd hmis hfits.not_misspelled
  · rintro ⟨fault, hd⟩
    apply Classical.not_not.mp
    intro hspelled
    obtain ⟨vs, pads, hfits, rfl⟩ := exists_fits_of_not_misspelled hspelled
    rw [← toList_ofAscii_encode hfits, decode_toUtf8_eq_ok_iff.mpr rfl] at hd
    cases hd

end Polypath.Text.Base64Url

import LoopLint.Json.Parse
import Mathlib.Data.List.TakeWhile
import Mathlib.Tactic.SplitIfs

/-!
# What is written can be read

The reader of JSON texts undoes `Json.pretty`: for every value, the text of the value is read back
as that value, whatever its texts hold and however deep it is nested.

A value is read from the start of a longer text, so every step is stated for a text with something
behind it.  Only a number needs to know what that is: it must not go on with a digit, a point or an
exponent.  The reader counts its steps, and `steps` says how many it needs; the text of a value has
at least half as many characters.
-/

namespace LoopLint.Json

/-! ### Texts -/

/-- A control character is written with the two last hexadecimal digits of its number. -/
lemma hexNumber?_hexDigits : ∀ n < 0x20,
    hexNumber? ((if n < 0x10 then ['0', '0', '0'] else ['0', '0']) ++ Text.hexDigits n) = some n ∧
      ((if n < 0x10 then ['0', '0', '0'] else ['0', '0']) ++ Text.hexDigits n).length = 4 := by
  decide

/-- Four digits behind `\u` are one part of a text. -/
lemma readUnits_code {ds : List Char} {n : Nat} (hn : hexNumber? ds = some n)
    (hlength : ds.length = 4) (cs : List Char) :
    readUnits ('\\' :: 'u' :: (ds ++ cs)) =
      (readUnits cs).map fun r => (.code n :: r.1, r.2) := by
  match ds, hlength with
  | [a, b, c, d], _ =>
    rw [List.cons_append, List.cons_append, List.cons_append, List.cons_append, List.nil_append,
      readUnits, hn]
    cases readUnits cs <;> rfl

/-- A character behind a backslash is one part of a text. -/
lemma readUnits_escape {e c : Char} (he : unescape? e = some c) (hu : e ≠ 'u') (cs : List Char) :
    readUnits ('\\' :: e :: cs) = (readUnits cs).map fun r => (.plain c :: r.1, r.2) := by
  rw [readUnits, he]
  · cases readUnits cs <;> rfl
  · intro a b c d rest h
    exact absurd h hu

/-- Any other character stands for itself. -/
lemma readUnits_plain {c : Char} (hquote : c ≠ '"') (hslash : c ≠ '\\') (hc : ¬c.toNat < 0x20)
    (cs : List Char) :
    readUnits (c :: cs) = (readUnits cs).map fun r => (.plain c :: r.1, r.2) := by
  rw [readUnits, if_neg]
  · cases readUnits cs <;> rfl
  · rintro (h | h)
    · exact hslash h
    · exact hc h
  · exact hquote
  · exact fun _ _ _ _ _ h => absurd h hslash
  · exact fun _ _ h => absurd h hslash

/-- A unit below the halves of characters is a character. -/
lemma joinUnits_code {n : Nat} (hn : n < 0x20) (us : List TextUnit) :
    joinUnits (.code n :: us) = (joinUnits us).map (Char.ofNat n :: ·) := by
  have hhigh : isHigh n = false := by
    simp only [isHigh, Bool.and_eq_false_iff, decide_eq_false_iff_not]
    omega
  have hlow : isLow n = false := by
    simp only [isLow, Bool.and_eq_false_iff, decide_eq_false_iff_not]
    omega
  match us with
  | [] => simp [joinUnits, hhigh, hlow]
  | .plain c :: us => simp [joinUnits, hhigh, hlow]
  | .code m :: us => rw [joinUnits]; simp [hhigh, hlow]

/-- A written character is read as one part of a text, and this part stands for the character. -/
lemma exists_unit_of_escapeChar (c : Char) : ∃ u,
    (∀ us, joinUnits (u :: us) = (joinUnits us).map (c :: ·)) ∧
      ∀ cs, readUnits (escapeChar c ++ cs) = (readUnits cs).map fun r => (u :: r.1, r.2) := by
  have hplain : ∀ us, joinUnits (.plain c :: us) = (joinUnits us).map (c :: ·) := fun us => by
    rw [joinUnits]
  have hcode : c.toNat < 0x20 → ∀ us, joinUnits (.code c.toNat :: us) =
      (joinUnits us).map (c :: ·) := fun hc us => by
    rw [joinUnits_code hc, Char.ofNat_toNat]
  unfold escapeChar
  split_ifs with hquote hslash hn hr ht hb hf hshort hlong
  · exact ⟨_, hplain, readUnits_escape (by simp [unescape?, hquote]) (by decide)⟩
  · exact ⟨_, hplain, readUnits_escape (by simp [unescape?, hslash]) (by decide)⟩
  · exact ⟨_, hplain, readUnits_escape (by simp [unescape?, hn]) (by decide)⟩
  · exact ⟨_, hplain, readUnits_escape (by simp [unescape?, hr]) (by decide)⟩
  · exact ⟨_, hplain, readUnits_escape (by simp [unescape?, ht]) (by decide)⟩
  · exact ⟨_, hplain, readUnits_escape (by simp [unescape?, hb]) (by decide)⟩
  · exact ⟨_, hplain, readUnits_escape (by simp [unescape?, hf]) (by decide)⟩
  · have hc : c.toNat < 0x20 := by omega
    obtain ⟨hvalue, hlength⟩ := hexNumber?_hexDigits c.toNat hc
    rw [if_pos hshort] at hvalue hlength
    exact ⟨_, hcode hc, fun cs => readUnits_code hvalue hlength cs⟩
  · obtain ⟨hvalue, hlength⟩ := hexNumber?_hexDigits c.toNat hlong
    rw [if_neg hshort] at hvalue hlength
    exact ⟨_, hcode hlong, fun cs => readUnits_code hvalue hlength cs⟩
  · exact ⟨_, hplain, readUnits_plain hquote hslash hlong⟩

/-- The parts of a written text. -/
lemma exists_units_of_flatMap_escapeChar (s rest : List Char) : ∃ us,
    readUnits (s.flatMap escapeChar ++ '"' :: rest) = some (us, rest) ∧ joinUnits us = some s := by
  induction s with
  | nil => exact ⟨[], by rw [List.flatMap_nil, List.nil_append, readUnits], by rw [joinUnits]⟩
  | cons c s ih =>
    obtain ⟨us, hread, hjoin⟩ := ih
    obtain ⟨u, hu, hc⟩ := exists_unit_of_escapeChar c
    refine ⟨u :: us, ?_, ?_⟩
    · rw [List.flatMap_cons, List.append_assoc, hc, hread, Option.map_some]
    · rw [hu, hjoin, Option.map_some]

/-- A written text is read back. -/
lemma readText_flatMap_escapeChar (s : String) (rest : List Char) :
    readText (s.toList.flatMap escapeChar ++ '"' :: rest) = some (s, rest) := by
  obtain ⟨us, hread, hjoin⟩ := exists_units_of_flatMap_escapeChar s.toList rest
  simp only [readText, hread, hjoin, Option.bind_eq_bind, Option.bind_some, String.ofList_toList]

/-! ### Numbers -/

/-- What may stand behind a value: a comma, a blank, or nothing. -/
def Ends (rest : List Char) : Prop :=
  ∀ c ∈ rest.head?, c = ',' ∨ isGap c

/-- A number ends before a comma or a gap. -/
lemma ends_cons {c : Char} (hc : c = ',' ∨ isGap c) (cs : List Char) : Ends (c :: cs) := by
  intro d hd
  obtain rfl : c = d := by simpa using hd
  exact hc

/-- The characters behind a value are none of those that a number could go on with. -/
lemma Ends.stops {c : Char} {cs : List Char} (h : Ends (c :: cs)) :
    c.isDigit = false ∧ c ≠ '.' ∧ c ≠ 'e' ∧ c ≠ 'E' := by
  have hc : c = ',' ∨ c = ' ' ∨ c = '\n' ∨ c = '\r' ∨ c = '\t' := by
    simpa [isGap, or_assoc] using h c (by simp)
  rcases hc with rfl | rfl | rfl | rfl | rfl <;> decide

/-- Only zero is written with a leading zero. -/
lemma eq_zero_of_head?_toDigits (n : Nat) (h : (Nat.toDigits 10 n).head? = some '0') : n = 0 := by
  induction n using Nat.strongRecOn with
  | ind n ih =>
    by_cases hn : n < 10
    · rw [Nat.toDigits_of_lt_base hn] at h
      have hzero : ∀ m < 10, Nat.digitChar m = '0' → m = 0 := by decide
      exact hzero n hn (by simpa using h)
    · obtain ⟨c, cs, hcs⟩ :=
        List.exists_cons_of_ne_nil (Nat.toDigits_ne_nil (n := n / 10) (b := 10))
      rw [Nat.toDigits_of_base_le (by decide) (by omega), hcs] at h
      have hquotient := ih (n / 10) (by omega) (by rw [hcs]; exact h)
      omega

/-- The digits of a number are taken off as far as they go. -/
lemma takeWhile_isDigit_toDigits (n : Nat) {rest : List Char} (h : Ends rest) :
    (Nat.toDigits 10 n ++ rest).takeWhile Char.isDigit = Nat.toDigits 10 n ∧
      (Nat.toDigits 10 n ++ rest).dropWhile Char.isDigit = rest := by
  have hdigits : ∀ c ∈ Nat.toDigits 10 n, c.isDigit = true :=
    fun c hc => Nat.isDigit_of_mem_toDigits (by decide) (by decide) hc
  rw [List.takeWhile_append_of_pos hdigits, List.dropWhile_append_of_pos hdigits]
  cases rest with
  | nil => simp
  | cons c cs => simp [h.stops.1]

/-- The digits of a number are read back, up to where the number ends. -/
lemma readNat_toDigits (n : Nat) {rest : List Char} (h : Ends rest) :
    readNat (Nat.toDigits 10 n ++ rest) = some (n, rest) := by
  obtain ⟨htake, hdrop⟩ := takeWhile_isDigit_toDigits n h
  have hneeded : ((Nat.toDigits 10 n).isEmpty ||
      ((Nat.toDigits 10 n).head? == some '0' && (Nat.toDigits 10 n).length != 1)) = false := by
    by_cases hn : n = 0
    · subst hn
      decide
    · have hhead : (Nat.toDigits 10 n).head? ≠ some '0' :=
        fun hzero => hn (eq_zero_of_head?_toDigits n hzero)
      simp [hhead, Nat.toDigits_ne_nil]
  have hvalue : ofDigits (Nat.toDigits 10 n) = n := Nat.ofDigitChars_ten_toDigits
  unfold readNat
  rw [htake, hdrop]
  cases rest with
  | nil => simp [hneeded, hvalue]
  | cons c cs =>
    obtain ⟨-, hpoint, he, hE⟩ := h.stops
    simp [hneeded, hvalue, hpoint, he, hE]

/-- A written number starts with a digit. -/
lemma exists_toDigits_eq_cons (n : Nat) : ∃ c cs, Nat.toDigits 10 n = c :: cs ∧ c.isDigit := by
  obtain ⟨c, cs, hcs⟩ := List.exists_cons_of_ne_nil (Nat.toDigits_ne_nil (n := n) (b := 10))
  refine ⟨c, cs, hcs, Nat.isDigit_of_mem_toDigits (b := 10) (n := n) (by decide) (by decide) ?_⟩
  rw [hcs]
  exact List.mem_cons_self

/-- A number that is not negative is written with its digits. -/
lemma toList_toString_ofNat (n : Nat) :
    (toString (Int.ofNat n)).toList = Nat.toDigits 10 n := by
  rw [Int.toString_eq_repr, Int.repr, Nat.toList_repr]

/-- A negative number is written with a minus and its digits. -/
lemma toList_toString_negSucc (n : Nat) :
    (toString (Int.negSucc n)).toList = '-' :: Nat.toDigits 10 (n + 1) := by
  simp [Int.toString_eq_repr, Int.repr]

/-- A written whole number starts with a digit or with its sign. -/
lemma exists_toString_eq_cons (n : Int) :
    ∃ c cs, (toString n).toList = c :: cs ∧ (c = '-' ∨ c.isDigit) := by
  cases n with
  | ofNat m =>
    obtain ⟨c, cs, hcs, hdigit⟩ := exists_toDigits_eq_cons m
    exact ⟨c, cs, (toList_toString_ofNat m).trans hcs, .inr hdigit⟩
  | negSucc m => exact ⟨'-', _, toList_toString_negSucc m, .inl rfl⟩

/-- A whole number is read back. -/
lemma readInt_toString (n : Int) {rest : List Char} (h : Ends rest) :
    readInt ((toString n).toList ++ rest) = some (n, rest) := by
  cases n with
  | ofNat m =>
    obtain ⟨c, cs, hcs, hdigit⟩ := exists_toDigits_eq_cons m
    have hminus : c ≠ '-' := by
      rintro rfl
      exact absurd hdigit (by decide)
    have hread := readNat_toDigits m h
    rw [toList_toString_ofNat]
    rw [hcs, List.cons_append] at hread ⊢
    rw [readInt, hread]
    · rfl
    · intro cs' heq
      exact hminus (List.cons.inj heq).1
  | negSucc m =>
    rw [toList_toString_negSucc, List.cons_append, readInt, readNat_toDigits (m + 1) h]
    rfl

/-! ### The starts of values -/

/-- What a number starts with is not what another value starts with. -/
lemma ne_of_number {c : Char} (hc : c = '-' ∨ c.isDigit) {d : Char} (hminus : d ≠ '-')
    (hdigit : d.isDigit = false) : c ≠ d := by
  rintro rfl
  rcases hc with hc | hc
  · exact hminus hc
  · rw [hdigit] at hc
    cases hc

/-- What does not start like one of the other values is read as a number. -/
lemma readValue_eq_readInt {c : Char} (hc : c ∉ ['n', 't', 'f', '"', '[', '\x7b']) (fuel : Nat)
    (cs : List Char) :
    readValue (fuel + 1) (c :: cs) = (readInt (c :: cs)).map fun r => (num r.1, r.2) := by
  have hother : ∀ {d : Char} {rest : List Char}, d ∈ ['n', 't', 'f', '"', '[', '\x7b'] →
      c :: cs = d :: rest → False :=
    fun hd heq => hc ((List.cons.inj heq).1 ▸ hd)
  rw [readValue] <;> exact fun rest => hother (by decide)

/-- A value that starts like a number is read as one. -/
lemma readValue_of_number {c : Char} (hc : c = '-' ∨ c.isDigit) (fuel : Nat) (cs : List Char) :
    readValue (fuel + 1) (c :: cs) = (readInt (c :: cs)).map fun r => (num r.1, r.2) := by
  refine readValue_eq_readInt (fun hmem => ?_) fuel cs
  have hne : ∀ d ∈ ['n', 't', 'f', '"', '[', '\x7b'], d ≠ '-' ∧ d.isDigit = false := by
    intro d hd
    simp only [List.mem_cons, List.not_mem_nil, or_false] at hd
    rcases hd with rfl | rfl | rfl | rfl | rfl | rfl <;> exact ⟨by decide, by decide⟩
  exact ne_of_number hc (hne c hmem).1 (hne c hmem).2 rfl

/-- A text that starts like no value stands for none. -/
theorem parse?_eq_none {text : String} {c : Char} (hhead : text.toList.head? = some c)
    (hgap : isGap c = false) (hc : c ∉ ['n', 't', 'f', '"', '[', '\x7b']) (hminus : c ≠ '-')
    (hdigit : c.isDigit = false) : parse? text = none := by
  obtain ⟨cs, htext⟩ : ∃ cs, text.toList = c :: cs := List.head?_eq_some_iff.mp hhead
  have hint : readInt (c :: cs) = none := by
    rw [readInt]
    · simp [readNat, hdigit]
    · exact fun rest heq => hminus (List.cons.inj heq).1
  have hskip : skipGap (c :: cs) = c :: cs := by
    rw [skipGap, List.dropWhile_cons_of_neg (by simp [hgap])]
  simp only [parse?, htext, hskip, readValue_eq_readInt hc, hint, Option.map_none]

/-- A text is written between quotes, character by character. -/
lemma toList_quote (s : String) :
    (quote s).toList = '"' :: (s.toList.flatMap escapeChar ++ ['"']) := by
  rw [quote, String.toList_ofList, List.cons_append]

/-- A new line is a line feed and two blanks for each level. -/
lemma toList_indent (level : Nat) :
    (indent level).toList = '\n' :: List.replicate (2 * level) ' ' := by
  simp [indent]

/-- The start of a line is passed over. -/
lemma skipGap_indent (level : Nat) {c : Char} (hc : isGap c = false) (cs : List Char) :
    skipGap ((indent level).toList ++ c :: cs) = c :: cs := by
  have hblank : ∀ d ∈ (indent level).toList, isGap d = true := by
    intro d hd
    rw [toList_indent, List.mem_cons, List.mem_replicate] at hd
    rcases hd with rfl | ⟨-, rfl⟩ <;> decide
  rw [skipGap, List.dropWhile_append_of_pos hblank, List.dropWhile_cons_of_neg (by simp [hc])]

/-- How an array with items is written. -/
lemma toList_render_arr (level : Nat) (item : Json) (items : List Json) :
    (render level (arr (item :: items))).toList =
      '[' :: ((indent (level + 1)).toList ++ ((render (level + 1) item).toList ++
        ((renderItems (level + 1) items).toList ++ ((indent level).toList ++ [']'])))) := by
  simp [render]

/-- How an object with entries is written. -/
lemma toList_render_obj (level : Nat) (key : String) (value : Json)
    (entries : List (String × Json)) :
    (render level (obj ((key, value) :: entries))).toList =
      '\x7b' :: ((indent (level + 1)).toList ++ ((quote key).toList ++ (':' :: ' ' ::
        ((render (level + 1) value).toList ++ ((renderEntries (level + 1) entries).toList ++
          ((indent level).toList ++ ['\x7d'])))))) := by
  simp [render]

/-- The items behind the first one are written behind commas. -/
lemma toList_renderItems_cons (level : Nat) (item : Json) (items : List Json) :
    (renderItems level (item :: items)).toList =
      ',' :: ((indent level).toList ++ ((render level item).toList ++
        (renderItems level items).toList)) := by
  simp [renderItems]

/-- The entries behind the first one are written behind commas. -/
lemma toList_renderEntries_cons (level : Nat) (key : String) (value : Json)
    (entries : List (String × Json)) :
    (renderEntries level ((key, value) :: entries)).toList =
      ',' :: ((indent level).toList ++ ((quote key).toList ++ (':' :: ' ' ::
        ((render level value).toList ++ (renderEntries level entries).toList)))) := by
  simp [renderEntries]

/-- A number ends at the end of its line. -/
lemma ends_indent (level : Nat) (cs : List Char) : Ends ((indent level).toList ++ cs) := by
  rw [toList_indent]
  exact ends_cons (.inr (by decide)) _

/-- A value starts neither with a blank nor with the end of an array. -/
lemma exists_render_eq_cons (level : Nat) (v : Json) :
    ∃ c cs, (render level v).toList = c :: cs ∧ isGap c = false ∧ c ≠ ']' := by
  match v with
  | null => exact ⟨_, _, by rw [render]; rfl, by decide⟩
  | bool true => exact ⟨_, _, by rw [render]; rfl, by decide⟩
  | bool false => exact ⟨_, _, by rw [render]; rfl, by decide⟩
  | num n =>
    obtain ⟨c, cs, hcs, hc⟩ := exists_toString_eq_cons n
    refine ⟨c, cs, by rw [render, hcs], ?_, ne_of_number hc (by decide) (by decide)⟩
    have hblank : c ≠ ' ' := ne_of_number hc (by decide) (by decide)
    have hnewline : c ≠ '\n' := ne_of_number hc (by decide) (by decide)
    have hreturn : c ≠ '\r' := ne_of_number hc (by decide) (by decide)
    have htab : c ≠ '\t' := ne_of_number hc (by decide) (by decide)
    simp [isGap, hblank, hnewline, hreturn, htab]
  | str s => exact ⟨_, _, by rw [render, toList_quote], by decide⟩
  | arr [] => exact ⟨_, _, by rw [render]; rfl, by decide⟩
  | arr (item :: items) => exact ⟨_, _, toList_render_arr level item items, by decide⟩
  | obj [] => exact ⟨_, _, by rw [render]; rfl, by decide⟩
  | obj ((key, value) :: entries) =>
    exact ⟨_, _, toList_render_obj level key value entries, by decide⟩

/-- No value starts with a gap. -/
lemma skipGap_render (level : Nat) (v : Json) (cs : List Char) :
    skipGap ((render level v).toList ++ cs) = (render level v).toList ++ cs := by
  obtain ⟨c, cs', htext, hgap, -⟩ := exists_render_eq_cons level v
  rw [htext, List.cons_append, skipGap, List.dropWhile_cons_of_neg (by simp [hgap])]

/-- A new line is skipped before a value. -/
lemma skipGap_indent_render (level outer : Nat) (v : Json) (cs : List Char) :
    skipGap ((indent outer).toList ++ ((render level v).toList ++ cs)) =
      (render level v).toList ++ cs := by
  obtain ⟨c, cs', htext, hgap, -⟩ := exists_render_eq_cons level v
  rw [htext, List.cons_append, skipGap_indent outer hgap]

/-- A new line is skipped before a key. -/
lemma skipGap_indent_quote (outer : Nat) (s : String) (cs : List Char) :
    skipGap ((indent outer).toList ++ ((quote s).toList ++ cs)) = (quote s).toList ++ cs := by
  rw [toList_quote, List.cons_append, skipGap_indent outer (by decide)]

/-! ### Values -/

/-- A value can be read back at every level, and two steps for each of its characters are enough. -/
def ReadsBack (v : Json) : Prop :=
  ∀ (level fuel : Nat) (rest : List Char), 2 * (render level v).toList.length ≤ fuel → Ends rest →
    readValue fuel ((render level v).toList ++ rest) = some (v, rest)

/-- The items of an array are read back if each of them is. -/
lemma readItems_renderItems (level outer : Nat) (rest : List Char) (items : List Json)
    (item : Json) (hitems : ∀ v ∈ item :: items, ReadsBack v) (fuel : Nat)
    (hfuel : 2 * ((render level item).toList.length + (renderItems level items).toList.length) + 1 ≤
      fuel) :
    readItems fuel ((render level item).toList ++ ((renderItems level items).toList ++
      ((indent outer).toList ++ ']' :: rest))) = some (item :: items, rest) := by
  induction items generalizing item fuel with
  | nil =>
    obtain ⟨fuel, rfl⟩ : ∃ m, fuel = m + 1 := ⟨fuel - 1, by omega⟩
    have hitem : ReadsBack item := hitems item List.mem_cons_self
    have hnone : (renderItems level []).toList = [] := by rw [renderItems]; rfl
    rw [hnone, List.nil_append, readItems,
      hitem level fuel _ (by omega) (ends_indent outer (']' :: rest))]
    simp only [Option.bind_eq_bind, Option.bind_some]
    rw [skipGap_indent outer (by decide)]
    rfl
  | cons next items ih =>
    obtain ⟨fuel, rfl⟩ : ∃ m, fuel = m + 1 := ⟨fuel - 1, by omega⟩
    have hitem : ReadsBack item := hitems item List.mem_cons_self
    rw [toList_renderItems_cons] at hfuel ⊢
    simp only [List.length_cons, List.length_append] at hfuel
    have hnext := ih next (fun v hv => hitems v (List.mem_cons_of_mem _ hv)) fuel (by omega)
    simp only [List.cons_append, List.append_assoc]
    rw [readItems, hitem level fuel _ (by omega) (ends_cons (.inl rfl) _)]
    simp only [Option.bind_eq_bind, Option.bind_some]
    rw [skipGap, List.dropWhile_cons_of_neg (by decide)]
    simp only [skipGap_indent_render, hnext, Option.map_some]

/-- An entry starts with its key. -/
lemma readEntries_quote (key : String) (level : Nat) (value : Json) (fuel : Nat)
    (cs : List Char) :
    readEntries (fuel + 1) ((quote key).toList ++ ':' :: ' ' ::
      ((render level value).toList ++ cs)) =
      (readValue fuel ((render level value).toList ++ cs)).bind fun r =>
        match skipGap r.2 with
        | ',' :: rest => (readEntries fuel (skipGap rest)).map fun s => ((key, r.1) :: s.1, s.2)
        | '\x7d' :: rest => some ([(key, r.1)], rest)
        | _ => none := by
  have hblank : skipGap (' ' :: ((render level value).toList ++ cs)) =
      (render level value).toList ++ cs := by
    rw [skipGap, List.dropWhile_cons_of_pos (by decide)]
    exact skipGap_render level value cs
  rw [toList_quote, List.cons_append, List.append_assoc, readEntries]
  simp only [List.cons_append, List.nil_append, readText_flatMap_escapeChar, Option.bind_eq_bind,
    Option.bind_some]
  rw [skipGap, List.dropWhile_cons_of_neg (by decide)]
  exact congrArg (fun cs => (readValue fuel cs).bind _) hblank

/-- The entries of an object are read back if the value of each of them is. -/
lemma readEntries_renderEntries (level outer : Nat) (rest : List Char)
    (entries : List (String × Json)) (key : String) (value : Json)
    (hentries : ∀ e ∈ (key, value) :: entries, ReadsBack e.2) (fuel : Nat)
    (hfuel : 2 * ((render level value).toList.length +
      (renderEntries level entries).toList.length) + 1 ≤ fuel) :
    readEntries fuel ((quote key).toList ++ ':' :: ' ' :: ((render level value).toList ++
      ((renderEntries level entries).toList ++ ((indent outer).toList ++ '\x7d' :: rest)))) =
      some ((key, value) :: entries, rest) := by
  induction entries generalizing key value fuel with
  | nil =>
    obtain ⟨fuel, rfl⟩ : ∃ m, fuel = m + 1 := ⟨fuel - 1, by omega⟩
    have hvalue : ReadsBack value := hentries (key, value) List.mem_cons_self
    have hnone : (renderEntries level []).toList = [] := by rw [renderEntries]; rfl
    rw [hnone, List.nil_append, readEntries_quote,
      hvalue level fuel _ (by omega) (ends_indent outer ('\x7d' :: rest)), Option.bind_some]
    simp only [skipGap_indent outer (show isGap '\x7d' = false by decide)]
  | cons next entries ih =>
    obtain ⟨nextKey, next⟩ := next
    obtain ⟨fuel, rfl⟩ : ∃ m, fuel = m + 1 := ⟨fuel - 1, by omega⟩
    have hvalue : ReadsBack value := hentries (key, value) List.mem_cons_self
    rw [toList_renderEntries_cons] at hfuel ⊢
    simp only [List.length_cons, List.length_append] at hfuel
    have hnext := ih nextKey next (fun e he => hentries e (List.mem_cons_of_mem _ he)) fuel
      (by omega)
    simp only [List.cons_append, List.append_assoc]
    rw [readEntries_quote, hvalue level fuel _ (by omega) (ends_cons (.inl rfl) _),
      Option.bind_some]
    rw [skipGap, List.dropWhile_cons_of_neg (by decide)]
    simp only [skipGap_indent_quote, hnext, Option.map_some]

/-- To read a value takes at least one step, so it is enough to look at what one step does. -/
lemma readsBack_of_succ {v : Json}
    (h : ∀ (level fuel : Nat) (rest : List Char), 2 * (render level v).toList.length ≤ fuel + 1 →
      Ends rest → readValue (fuel + 1) ((render level v).toList ++ rest) = some (v, rest)) :
    ReadsBack v := by
  intro level fuel rest hfuel hrest
  obtain ⟨c, cs, htext, -⟩ := exists_render_eq_cons level v
  have hlength : (render level v).toList.length = cs.length + 1 := by rw [htext, List.length_cons]
  obtain ⟨fuel, rfl⟩ : ∃ m, fuel = m + 1 := ⟨fuel - 1, by omega⟩
  exact h level fuel rest hfuel hrest

/-- The value `null` is read back. -/
lemma readsBack_null : ReadsBack null :=
  readsBack_of_succ fun level fuel rest _ _ => by
    rw [render]
    rfl

/-- Truth values are read back. -/
lemma readsBack_bool (b : Bool) : ReadsBack (bool b) :=
  readsBack_of_succ fun level fuel rest _ _ => by
    rw [render]
    cases b <;> rfl

/-- Numbers are read back. -/
lemma readsBack_num (n : Int) : ReadsBack (num n) :=
  readsBack_of_succ fun level fuel rest _ hrest => by
    obtain ⟨c, cs, hcs, hc⟩ := exists_toString_eq_cons n
    have hread := readInt_toString n hrest
    rw [render]
    rw [hcs, List.cons_append] at hread ⊢
    rw [readValue_of_number hc, hread]
    rfl

/-- Texts are read back. -/
lemma readsBack_str (s : String) : ReadsBack (str s) :=
  readsBack_of_succ fun level fuel rest _ _ => by
    rw [render, toList_quote, List.cons_append, List.append_assoc, readValue]
    simp only [List.cons_append, List.nil_append, readText_flatMap_escapeChar, Option.map_some]

/-- An array is read back if its items are. -/
lemma readsBack_arr (items : List Json) (h : ∀ v ∈ items, ReadsBack v) : ReadsBack (arr items) :=
  readsBack_of_succ fun level fuel rest hfuel _ => by
    cases items with
    | nil =>
      rw [render]
      rfl
    | cons item items =>
      rw [toList_render_arr] at hfuel ⊢
      simp only [List.length_cons, List.length_append] at hfuel
      have hread := readItems_renderItems (level + 1) level rest items item h fuel (by omega)
      -- the first item keeps the reader from taking the array for an empty one
      obtain ⟨c, cs, hcs, -, hc⟩ := exists_render_eq_cons (level + 1) item
      simp only [List.cons_append, List.append_assoc, List.nil_append]
      rw [readValue, skipGap_indent_render]
      rw [hcs, List.cons_append] at hread ⊢
      split
      · next heq => exact absurd (List.cons.inj heq).1 hc
      · rw [hread, Option.map_some]

/-- An object is read back if its values are. -/
lemma readsBack_obj (entries : List (String × Json)) (h : ∀ e ∈ entries, ReadsBack e.2) :
    ReadsBack (obj entries) :=
  readsBack_of_succ fun level fuel rest hfuel _ => by
    cases entries with
    | nil =>
      rw [render]
      rfl
    | cons entry entries =>
      obtain ⟨key, value⟩ := entry
      rw [toList_render_obj] at hfuel ⊢
      simp only [List.length_cons, List.length_append] at hfuel
      have hread := readEntries_renderEntries (level + 1) level rest entries key value h fuel
        (by omega)
      simp only [List.cons_append, List.append_assoc, List.nil_append]
      rw [readValue, skipGap_indent_quote]
      rw [toList_quote, List.cons_append] at hread ⊢
      split
      · next heq => exact absurd (List.cons.inj heq).1 (by decide)
      · rw [hread, Option.map_some]

/-- Every value is read back. -/
theorem readsBack : ∀ v, ReadsBack v
  | null => readsBack_null
  | bool b => readsBack_bool b
  | num n => readsBack_num n
  | str s => readsBack_str s
  | arr items => readsBack_arr items fun v _ => readsBack v
  | obj entries => readsBack_obj entries fun e _ => readsBack e.2
decreasing_by
  · have hitem := List.sizeOf_lt_of_mem ‹v ∈ items›
    simp only [arr.sizeOf_spec]
    omega
  · have hentry : sizeOf e.2 < sizeOf e := by
      obtain ⟨key, value⟩ := e
      simp only [Prod.mk.sizeOf_spec]
      omega
    have hentries := List.sizeOf_lt_of_mem ‹e ∈ entries›
    simp only [obj.sizeOf_spec]
    omega

/-- Of a text that is all gap nothing is left. -/
lemma skipGap_of_all {cs : List Char} (h : cs.all isGap) : skipGap cs = [] := by
  exact List.dropWhile_eq_nil_iff.mpr (List.all_eq_true.mp h)

/-- The text of a value with only blanks behind it stands for the value. -/
theorem parse?_pretty_append (v : Json) (blanks : String) (h : blanks.toList.all isGap) :
    parse? (v.pretty ++ blanks) = some v := by
  have hends : Ends blanks.toList := by
    intro c hc
    exact .inr (List.all_eq_true.mp h c (List.mem_of_mem_head? hc))
  have hread := readsBack v 0 (2 * (v.pretty ++ blanks).toList.length + 2) blanks.toList
    (by rw [String.toList_append, List.length_append, pretty]; omega) hends
  unfold parse?
  simp only [pretty, String.toList_append, skipGap_render] at hread ⊢
  rw [hread]
  simp only [skipGap_of_all h, List.isEmpty_nil, if_true]

/-- The text of a value stands for the value. -/
theorem parse?_pretty (v : Json) : parse? v.pretty = some v := by
  have h := parse?_pretty_append v "" rfl
  rwa [String.append_empty] at h

end LoopLint.Json

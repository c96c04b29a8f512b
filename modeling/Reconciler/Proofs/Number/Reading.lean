import Reconciler.Proofs.Number.Shortest

/-!
# Numbers that are read back

The text of a floating-point number has the shortest digits that spell a real of its
interval, in one of four layouts. Reading takes the digits and their power of ten out of any
of them and rounds once, so it arrives at the number itself. Main statement: `read_text`.
-/

namespace Reconciler.Double

open Reconciler.Text

variable {significand : Nat} {exponent : Int}

/-! ### Rounding a decimal -/

/-- The reals of an interval lie far inside the range in which powers of ten are computed. -/
theorem range_of_holds (normal : IsNormal significand exponent) (hs : 0 < significand) {x : ℚ}
    (h : (interval significand exponent).holds x = true) :
    (10 : ℚ) ^ (-400 : Int) ≤ x ∧ x < 10 ^ (399 : Int) := by
  obtain ⟨low, high, -⟩ := holds_half hs h
  have least := normal.least
  have greatest := normal.greatest
  simp only [leastExponent, greatestExponent] at least greatest
  have one : (1 : ℚ) ≤ significand := by exact_mod_cast hs
  have short : (significand + 1 : ℚ) ≤ 2 ^ 53 := by exact_mod_cast normal.short
  have two : (1 : ℚ) ≤ 2 := one_le_two
  have pos : (0 : ℚ) < 2 ^ exponent := by positivity
  constructor
  · calc (10 : ℚ) ^ (-400 : Int) ≤ 2 ^ (-1075 : Int) :=
          ten_zpow_le_two_zpow (by norm_num) (by norm_num)
      _ ≤ 2 ^ (exponent - 1) := zpow_le_zpow_right₀ two (by omega)
      _ = 1 / 2 * 2 ^ exponent := by
          rw [zpow_sub_one₀ two_ne_zero]
          ring
      _ ≤ (significand - 1 / 2) * 2 ^ exponent := mul_le_mul_of_nonneg_right (by linarith) pos.le
      _ ≤ x := low
  · calc x ≤ (significand + 1 / 2) * 2 ^ exponent := high
      _ < 2 ^ 53 * 2 ^ exponent := mul_lt_mul_of_pos_right (by linarith) pos
      _ = 2 ^ (53 + exponent) := by
          rw [zpow_add₀ two_ne_zero]
          rfl
      _ ≤ 2 ^ (1024 : Int) := zpow_le_zpow_right₀ two (by omega)
      _ ≤ 10 ^ (399 : Int) := two_zpow_le_ten_zpow (by norm_num) (by norm_num)

/-- A positive whole number lies between two powers of ten that its length names. -/
theorem length_toDigits_spec {value : Nat} (h : 0 < value) :
    (10 : ℚ) ^ ((Nat.toDigits 10 value).length - 1 : Int) ≤ value ∧
      (value : ℚ) < 10 ^ ((Nat.toDigits 10 value).length : Int) := by
  have positive : 0 < (Nat.toDigits 10 value).length := Nat.length_toDigits_pos
  have upper := (Nat.length_toDigits_le_iff (by decide) positive).mp le_rfl
  generalize hlength : (Nat.toDigits 10 value).length = length at *
  obtain ⟨shorter, rfl⟩ := Nat.exists_eq_succ_of_ne_zero positive.ne'
  have lower : 10 ^ shorter ≤ value := by
    rcases Nat.eq_zero_or_pos shorter with rfl | several
    · exact h
    · by_contra below
      have := (Nat.length_toDigits_le_iff (by decide) several).mpr (not_le.mp below)
      omega
  rw [Nat.succ_eq_add_one, Nat.cast_add_one, add_sub_cancel_right, zpow_natCast,
    ← Nat.cast_add_one, zpow_natCast]
  exact ⟨by exact_mod_cast lower, by exact_mod_cast upper⟩

/-- A decimal in the interval of a number is rounded to that number. -/
theorem ofScientific_eq (normal : IsNormal significand exponent) (hs : 0 < significand)
    {digits : Nat} {power : Int}
    (h : (interval significand exponent).holds (digits * (10 : ℚ) ^ power) = true)
    (negative : Bool) :
    ofScientific negative digits power = .finite negative significand exponent := by
  obtain ⟨least, greatest⟩ := range_of_holds normal hs h
  have ten : (1 : ℚ) < 10 := by norm_num
  have tenPos : (0 : ℚ) < 10 ^ power := by positivity
  have nonzero : digits ≠ 0 := by
    intro zero
    have positive := pos_of_holds hs h
    rw [zero, Nat.cast_zero, zero_mul] at positive
    exact lt_irrefl _ positive
  obtain ⟨lower, upper⟩ := length_toDigits_spec (Nat.pos_of_ne_zero nonzero)
  unfold ofScientific
  generalize (Nat.toDigits 10 digits).length = length at *
  have below : (length - 1 + power : Int) < 399 := by
    refine (zpow_lt_zpow_iff_right₀ ten).mp (lt_of_le_of_lt ?_ greatest)
    rw [zpow_add₀ (by norm_num)]
    exact mul_le_mul_of_nonneg_right lower tenPos.le
  have above : (-400 : Int) < length + power := by
    refine (zpow_lt_zpow_iff_right₀ ten).mp (least.trans_lt ?_)
    rw [zpow_add₀ (by norm_num)]
    exact mul_lt_mul_of_pos_right upper tenPos
  dsimp only
  rw [if_neg nonzero, if_neg (by omega), if_neg (by omega)]
  split
  · rename_i nonneg
    lift power to ℕ using nonneg
    refine nearest_eq normal hs one_pos ?_ negative
    simpa using h
  · obtain ⟨places, rfl⟩ : ∃ places : ℕ, power = -places := ⟨(-power).toNat, by omega⟩
    refine nearest_eq normal hs (by simp) ?_ negative
    simpa [div_eq_mul_inv] using h

/-! ### Taking digits -/

/-- Text that cannot go on with a row of digits. -/
def EndsDigits (text : List Char) : Prop :=
  ∀ c ∈ text.head?, digitValue? c = none ∧ c ≠ '_'

theorem endsDigits_nil : EndsDigits [] := by
  intro c hc
  cases hc

theorem endsDigits_cons {c : Char} (notDigit : digitValue? c = none) (notBar : c ≠ '_')
    (rest : List Char) : EndsDigits (c :: rest) := by
  intro head hhead
  obtain rfl := Option.some.inj hhead
  exact ⟨notDigit, notBar⟩

theorem takeDigits_digitChars {digits : List Nat} (h : AreDigits digits) {rest : List Char}
    (ends : EndsDigits rest) (inside : Bool) :
    takeDigits inside (digitChars digits ++ rest) = (digits, rest) := by
  induction digits generalizing inside with
  | nil =>
    cases rest with
    | nil => rfl
    | cons c rest =>
      obtain ⟨notDigit, notBar⟩ := ends c rfl
      have bar : (c == '_') = false := beq_false_of_ne notBar
      change takeDigits inside (c :: rest) = _
      rw [takeDigits, notDigit]
      dsimp only
      rw [bar, Bool.false_and, Bool.false_and, if_neg (by decide)]
  | cons digit digits ih =>
    obtain ⟨here, later⟩ := List.forall_mem_cons.mp h
    change takeDigits inside (digit.digitChar :: (digitChars digits ++ rest)) = _
    rw [takeDigits, digitValue?_digitChar here, ih later]

/-- A number with a point after some digits is read as all its digits, scaled by the places
after the point and the exponent. -/
theorem readMagnitude_point {whole fraction : List Nat} (hwhole : AreDigits whole)
    (nonempty : whole ≠ []) (hfraction : AreDigits fraction) {rest : List Char}
    (ends : EndsDigits rest) {power : Int} (hrest : readExponent rest = some power)
    (negative : Bool) :
    readMagnitude negative (digitChars whole ++ '.' :: (digitChars fraction ++ rest)) =
      some (ofScientific negative (ofDigits (whole ++ fraction)) (power - fraction.length)) := by
  have point : EndsDigits ('.' :: (digitChars fraction ++ rest)) :=
    endsDigits_cons (by decide) (by decide) _
  have some : whole.isEmpty = false := List.isEmpty_eq_false_iff.mpr nonempty
  rw [readMagnitude, takeDigits_digitChars hwhole point]
  simp only [takeDigits_digitChars hfraction ends, some, hrest, Bool.false_and, Option.map_some,
    Bool.false_eq_true, if_false]

/-- A number without a point is read as its digits, scaled by the exponent. -/
theorem readMagnitude_whole {whole : List Nat} (hwhole : AreDigits whole) (nonempty : whole ≠ [])
    {rest : List Char} (ends : EndsDigits rest) (noPoint : ∀ after, rest ≠ '.' :: after)
    {power : Int} (hrest : readExponent rest = some power) (negative : Bool) :
    readMagnitude negative (digitChars whole ++ rest) =
      some (ofScientific negative (ofDigits whole) power) := by
  have some : whole.isEmpty = false := List.isEmpty_eq_false_iff.mpr nonempty
  rw [readMagnitude, takeDigits_digitChars hwhole ends]
  dsimp only
  rw [some, Bool.false_and, if_neg (by decide)]
  split
  · exact (noPoint _ rfl).elim
  · rw [hrest, Option.map_some, List.append_nil, List.length_nil, Nat.cast_zero, sub_zero]

/-- The text of an exponent is its sign and a row of digits that spell it. -/
theorem exists_exponentText (power : Int) : ∃ digits, AreDigits digits ∧ digits ≠ [] ∧
    ofDigits digits = power.natAbs ∧
    exponentText power = (if power < 0 then '-' else '+') :: digitChars digits := by
  have areDigits := areDigits_digitsOf power.natAbs
  have spells := ofDigits_digitsOf power.natAbs
  unfold exponentText
  dsimp only
  rw [← digitChars_digitsOf]
  by_cases short : (digitChars (digitsOf power.natAbs)).length < 2
  · refine ⟨0 :: digitsOf power.natAbs, ?_, nofun, ?_, ?_⟩
    · exact List.forall_mem_cons.mpr ⟨by decide, areDigits⟩
    · rw [ofDigits_zero_cons, spells]
    · rw [if_pos short]
      rfl
  · exact ⟨digitsOf power.natAbs, areDigits, digitsOf_ne_nil _, spells, by rw [if_neg short]⟩

theorem readExponent_exponentText (power : Int) :
    readExponent ('e' :: exponentText power) = some power := by
  obtain ⟨digits, areDigits, nonempty, spells, text⟩ := exists_exponentText power
  have taken : takeDigits false (digitChars digits ++ []) = (digits, []) :=
    takeDigits_digitChars areDigits endsDigits_nil false
  rw [List.append_nil] at taken
  obtain ⟨first, more, rfl⟩ := List.exists_cons_of_ne_nil nonempty
  rw [text]
  by_cases negative : power < 0
  · rw [if_pos negative]
    simp only [readExponent, taken, spells]
    simp [abs_of_neg negative]
  · rw [if_neg negative]
    simp only [readExponent, taken, spells]
    simp [abs_of_nonneg (not_lt.mp negative)]

/-! ### Reading a text -/

theorem digitChars_append (xs ys : List Nat) :
    digitChars (xs ++ ys) = digitChars xs ++ digitChars ys :=
  List.map_append

theorem digitChars_replicate_zero (count : Nat) :
    digitChars (List.replicate count 0) = List.replicate count '0' :=
  List.map_replicate

/-- The characters that the text of a number may have. -/
def IsNumeral (c : Char) : Prop := c.isDigit ∨ c ∈ ['.', 'e', '+', '-']

/-- The form of an unsigned number: characters of numbers, a digit first. -/
structure IsUnsigned (text : List Char) : Prop where
  nonempty : text ≠ []
  first : ∀ c ∈ text.head?, c.isDigit
  numeral : ∀ c ∈ text, IsNumeral c

/-- The form of an unsigned number that is not written as a whole one. -/
structure IsMagnitude (text : List Char) : Prop extends IsUnsigned text where
  marked : ∃ c ∈ text, c = '.' ∨ c = 'e'

/-- A text of this form that is read as a decimal of a given value. -/
def ReadsAs (negative : Bool) (text : List Char) (value : ℚ) : Prop :=
  IsMagnitude text ∧ ∃ (digits : Nat) (power : Int),
    readMagnitude negative text = some (ofScientific negative digits power) ∧
      digits * (10 : ℚ) ^ power = value

variable {whole fraction digits : List Nat} (negative : Bool)

theorem isNumeral_digitChars (h : AreDigits digits) : ∀ c ∈ digitChars digits, IsNumeral c :=
  fun _ hc => .inl (isDigit_of_mem_digitChars h hc)

theorem isNumeral_exponentText (power : Int) : ∀ c ∈ exponentText power, IsNumeral c := by
  obtain ⟨digits, areDigits, -, -, text⟩ := exists_exponentText power
  rw [text]
  refine List.forall_mem_cons.mpr ⟨.inr ?_, isNumeral_digitChars areDigits⟩
  split <;> decide

theorem isMagnitude_append (hwhole : AreDigits whole) (nonempty : whole ≠ []) {mark : Char}
    (hmark : mark = '.' ∨ mark = 'e') {rest : List Char} (hrest : ∀ c ∈ rest, IsNumeral c) :
    IsMagnitude (digitChars whole ++ mark :: rest) := by
  have numeral : IsNumeral mark := by
    rcases hmark with rfl | rfl <;> exact .inr (by decide)
  obtain ⟨first, others, rfl⟩ := List.exists_cons_of_ne_nil nonempty
  refine ⟨⟨by simp [digitChars], ?_, ?_⟩, mark, by simp, hmark⟩
  · intro c hc
    obtain rfl := Option.some.inj hc
    exact isDigit_of_mem_digitChars hwhole (List.mem_cons_self ..)
  · exact List.forall_mem_append.mpr
      ⟨isNumeral_digitChars hwhole, List.forall_mem_cons.mpr ⟨numeral, hrest⟩⟩

theorem readsAs_point (hwhole : AreDigits whole) (nonempty : whole ≠ [])
    (hfraction : AreDigits fraction) :
    ReadsAs negative (digitChars whole ++ '.' :: digitChars fraction)
      (ofDigits (whole ++ fraction) * 10 ^ (-fraction.length : Int)) := by
  have read := readMagnitude_point hwhole nonempty hfraction endsDigits_nil
    (rfl : readExponent [] = some 0) negative
  rw [List.append_nil, zero_sub] at read
  have form := isMagnitude_append hwhole nonempty (.inl rfl) (isNumeral_digitChars hfraction)
  exact ⟨form, _, _, read, rfl⟩

/-- A number below one has zeros between the point and its digits. -/
theorem readsAs_below (h : AreDigits digits) (count : Nat) :
    ReadsAs negative ('0' :: '.' :: List.replicate count '0' ++ digitChars digits)
      (ofDigits digits * 10 ^ (-count - digits.length : Int)) := by
  have areDigits : AreDigits (List.replicate count 0 ++ digits) :=
    List.forall_mem_append.mpr ⟨areDigits_replicate_zero count, h⟩
  have read := readsAs_point negative (areDigits_replicate_zero 1) (by decide) areDigits
  have places : (-(List.replicate count 0 ++ digits).length : Int) = -count - digits.length := by
    rw [List.length_append, List.length_replicate]
    omega
  have spelled : ofDigits (List.replicate 1 0 ++ (List.replicate count 0 ++ digits)) =
      ofDigits digits := by
    rw [ofDigits_append, ofDigits_append, ofDigits_replicate_zero, ofDigits_replicate_zero,
      Nat.zero_mul, Nat.zero_mul, Nat.zero_add, Nat.zero_add]
  rw [places, spelled, digitChars_append, digitChars_replicate_zero,
    digitChars_replicate_zero] at read
  exact read

/-- A large whole number has zeros between its digits and the point. -/
theorem readsAs_padded (h : AreDigits digits) (nonempty : digits ≠ []) (count : Nat) :
    ReadsAs negative (digitChars digits ++ List.replicate count '0' ++ ['.', '0'])
      (ofDigits digits * 10 ^ (count : Int)) := by
  have areDigits : AreDigits (digits ++ List.replicate count 0) :=
    List.forall_mem_append.mpr ⟨h, areDigits_replicate_zero count⟩
  have read := readsAs_point negative areDigits (by simp [nonempty]) (areDigits_replicate_zero 1)
  have value : (ofDigits (digits ++ List.replicate count 0 ++ List.replicate 1 0) : ℚ) *
      10 ^ (-(List.replicate 1 0).length : Int) = ofDigits digits * 10 ^ (count : Int) := by
    rw [ofDigits_append, ofDigits_append, ofDigits_replicate_zero, ofDigits_replicate_zero,
      List.length_replicate, List.length_replicate, zpow_natCast]
    norm_num
    ring
  rw [value, digitChars_append, digitChars_replicate_zero, digitChars_replicate_zero] at read
  exact read

/-- A number with an exponent has one digit before the point, and no point if that is all. -/
theorem readsAs_exponent {first : Nat} (hfirst : first < 10) (h : AreDigits digits)
    (power : Int) :
    ReadsAs negative
      (digitChars [first] ++
        (if (digitChars digits).isEmpty then [] else '.' :: digitChars digits) ++
        'e' :: exponentText power)
      (ofDigits (first :: digits) * 10 ^ (power - digits.length)) := by
  have single : AreDigits [first] := by
    intro digit hmem
    rwa [List.mem_singleton.mp hmem]
  have ends : EndsDigits ('e' :: exponentText power) :=
    endsDigits_cons (by decide) (by decide) _
  have scale := readExponent_exponentText power
  have numeral := isNumeral_exponentText power
  cases digits with
  | nil =>
    have read := readMagnitude_whole single (by simp) ends (by simp) scale negative
    exact ⟨isMagnitude_append single (by simp) (.inr rfl) numeral, _, _, read, by simp⟩
  | cons second digits =>
    have read := readMagnitude_point single (by simp) h ends scale negative
    have rest : ∀ c ∈ digitChars (second :: digits) ++ 'e' :: exponentText power, IsNumeral c :=
      List.forall_mem_append.mpr ⟨isNumeral_digitChars h,
        List.forall_mem_cons.mpr ⟨.inr (by decide), numeral⟩⟩
    have form := isMagnitude_append single (by simp) (.inl rfl) rest
    refine ⟨?_, _, _, Eq.trans ?_ read, rfl⟩
    · simpa [digitChars] using form
    · simp [digitChars]

/-- Digits and their point, in whatever layout they are written, are read as a decimal of the
value that they spell. -/
theorem readsAs_text {d : Digits} (h : AreDigits d.digits) (nonempty : d.digits ≠ [])
    (negative : Bool) : ReadsAs negative d.text d.value := by
  unfold Digits.text Digits.value
  dsimp only
  split
  · split
    · rename_i small
      have read := readsAs_below negative h (-d.point).toNat
      have point : (-((-d.point).toNat : Int)) = d.point := by omega
      rwa [point] at read
    · rename_i large
      rw [length_digitChars]
      split
      · rename_i short
        have read := readsAs_padded negative h nonempty (d.point.toNat - d.digits.length)
        have point : ((d.point.toNat - d.digits.length : ℕ) : Int) =
            d.point - d.digits.length := by omega
        rwa [point] at read
      · rename_i long
        have whole : AreDigits (d.digits.take d.point.toNat) :=
          fun digit hmem => h digit (List.mem_of_mem_take hmem)
        have fraction : AreDigits (d.digits.drop d.point.toNat) :=
          fun digit hmem => h digit (List.mem_of_mem_drop hmem)
        have some : d.digits.take d.point.toNat ≠ [] := by
          rw [ne_eq, List.take_eq_nil_iff, not_or]
          exact ⟨by omega, nonempty⟩
        have read := readsAs_point negative whole some fraction
        have point : (-(d.digits.drop d.point.toNat).length : Int) =
            d.point - d.digits.length := by
          rw [List.length_drop]
          omega
        rw [List.take_append_drop, point] at read
        rwa [digitChars, digitChars, List.map_take, List.map_drop] at read
  · obtain ⟨first, rest, heq⟩ := List.exists_cons_of_ne_nil nonempty
    rw [heq] at h ⊢
    obtain ⟨hfirst, hrest⟩ := List.forall_mem_cons.mp h
    have read := readsAs_exponent negative hfirst hrest (d.point - 1)
    have point : d.point - 1 - rest.length = d.point - (first :: rest).length := by
      rw [List.length_cons]
      omega
    rwa [point] at read

/-! ### Whole texts -/

theorem IsNumeral.isBlank_eq {c : Char} (h : IsNumeral c) : isBlank c = false := by
  rcases h with digit | mark
  · exact isBlank_of_isDigit digit
  · have table : ['.', 'e', '+', '-'].all fun c => !isBlank c := by decide
    simpa using List.all_eq_true.mp table c mark

/-- A text that starts with a digit is no word. -/
theorem readWord_of_isMagnitude {text : List Char} (h : IsMagnitude text) (negative : Bool) :
    readWord negative (String.ofList (text.map Char.toLower)) = none := by
  obtain ⟨first, rest, rfl⟩ := List.exists_cons_of_ne_nil h.nonempty
  have digit := h.first first rfl
  rw [List.map_cons, toLower_of_isDigit digit]
  have other : ∀ (word : String) letter, word.toList.head? = some letter →
      letter.isDigit = false →
      (String.ofList (first :: rest.map Char.toLower) == word) = false := by
    intro word letter hletter notDigit
    refine beq_false_of_ne fun heq => ?_
    rw [← heq, String.toList_ofList] at hletter
    rw [← Option.some.inj hletter, digit] at notDigit
    cases notDigit
  rw [readWord, other "inf" 'i' rfl rfl, other "infinity" 'i' rfl rfl, other "nan" 'n' rfl rfl]
  rfl

theorem read_signed {text : List Char} (h : IsMagnitude text) (negative : Bool) :
    read (signed negative text) = readMagnitude negative text := by
  have word := readWord_of_isMagnitude h negative
  have plain : ∀ c ∈ text, isBlank c = false := fun c hc => (h.numeral c hc).isBlank_eq
  cases negative with
  | true =>
    have trimmed : trim ('-' :: text) = '-' :: text :=
      trim_eq_self (List.forall_mem_cons.mpr ⟨by decide, plain⟩)
    rw [signed, if_pos rfl, read, trimmed]
    simp only [word, Option.none_or]
  | false =>
    rw [signed, if_neg (by decide), read, trim_eq_self plain]
    dsimp only
    split
    · exact absurd (h.first _ rfl) (by decide)
    · exact absurd (h.first _ rfl) (by decide)
    · dsimp only
      rw [word, Option.none_or]

/-- Whether a number has its normal form. -/
def isNormal : Double → Bool
  | .finite _ significand exponent =>
    significand < 2 ^ 53 && leastExponent ≤ exponent && exponent ≤ greatestExponent &&
      (2 ^ 52 ≤ significand || exponent = leastExponent)
  | _ => true

theorem isNormal_finite {negative : Bool} {significand : Nat} {exponent : Int} :
    isNormal (.finite negative significand exponent) ↔ IsNormal significand exponent := by
  simp only [isNormal, Bool.and_eq_true, Bool.or_eq_true, decide_eq_true_eq]
  constructor
  · rintro ⟨⟨⟨short, least⟩, greatest⟩, full⟩
    exact ⟨short, least, greatest, full⟩
  · rintro ⟨short, least, greatest, full⟩
    exact ⟨⟨⟨short, least⟩, greatest⟩, full⟩

/-- The text of a finite number is its sign and a magnitude that is read as the number. -/
theorem exists_text {negative : Bool} (h : isNormal (.finite negative significand exponent)) :
    ∃ magnitude, (text (.finite negative significand exponent)).toList = signed negative magnitude ∧
      IsMagnitude magnitude ∧
      readMagnitude negative magnitude = some (.finite negative significand exponent) := by
  have normal := isNormal_finite.mp h
  refine ⟨_, String.toList_ofList, ?_⟩
  by_cases hs : significand = 0
  · obtain rfl := hs
    obtain rfl : exponent = leastExponent := normal.full.resolve_left (by norm_num)
    rw [if_pos rfl]
    refine ⟨isMagnitude_append (areDigits_replicate_zero 1) (by decide) (.inl rfl)
      (isNumeral_digitChars (areDigits_replicate_zero 1)), ?_⟩
    cases negative <;> rfl
  · rw [if_neg hs]
    have positive := Nat.pos_of_ne_zero hs
    obtain ⟨form, digits, power, read, value⟩ := readsAs_text
      (areDigits_shortest significand exponent) (shortest_ne_nil normal positive) negative
    have holds := holds_shortest normal positive
    rw [← value] at holds
    rw [read, ofScientific_eq normal positive holds]
    exact ⟨form, rfl⟩

/-- A finite number is read back from its text. -/
theorem read_text {negative : Bool} (h : isNormal (.finite negative significand exponent)) :
    read (text (.finite negative significand exponent)).toList =
      some (.finite negative significand exponent) := by
  obtain ⟨magnitude, text, form, read⟩ := exists_text h
  rw [text, read_signed form, read]

end Reconciler.Double

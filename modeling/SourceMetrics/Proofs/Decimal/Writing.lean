/-
# A written float tells its bits

A decimal is written in one of five ways, all of the same parts:

    whole  digits, at least one, and no zero before others
    part   a point with the digits behind it, at least one, or nothing
    power  an `e` with a signed exponent, or nothing

A text tells its parts (`Layout.eq_of_text_eq`), and the parts tell what the
decimal stands for, in whichever way it was written (`writes_write`).  The
decimal of a float reads back as this float alone, so that the text of a
finite float tells the float (`eq_of_writeFloat?_eq`).
-/
import Mathlib
import SourceMetrics.Decimal.Writing
import SourceMetrics.Proofs.Decimal.Shortest
import SourceMetrics.Proofs.Text.Runs

namespace SourceMetrics.Decimal

open Text

/-! ## Layouts -/

/-- The parts of a written decimal. -/
@[ext]
structure Layout where
  whole : List Char
  part : Option (List Char)
  power : Option ℤ
  whole_ne_nil : whole ≠ []
  whole_digits : ∀ c ∈ whole, c.isDigit = true
  /-- A zero stands alone. -/
  whole_lead : whole.head? = some '0' → whole = ['0']
  part_ne_nil : part ≠ some []
  part_digits : ∀ c ∈ part.getD [], c.isDigit = true

namespace Layout

/-- The point with the digits behind it. -/
def partText : Option (List Char) → List Char
  | none => []
  | some digits => '.' :: digits

/-- The mark of the exponent with the exponent behind it. -/
def powerText : Option ℤ → List Char
  | none => []
  | some k => 'e' :: (Digits.signed k).toList

/-- The characters of a written decimal that are no digits. -/
def marks : List Char := ['.', 'e', '+', '-']

/-- The characters of the parts. -/
def text (l : Layout) : List Char := l.whole ++ (partText l.part ++ powerText l.power)

/-- What the parts stand for. -/
def value (l : Layout) : ℚ :=
  Nat.ofDigitChars 10 (l.whole ++ l.part.getD []) 0 *
    10 ^ (l.power.getD 0 - (l.part.getD []).length)

theorem toList_signed (k : ℤ) :
    (Digits.signed k).toList = (if k < 0 then '-' else '+') :: Nat.toDigits 10 k.natAbs := by
  rw [Digits.signed]
  split <;> rw [String.toList_append, Nat.toString_eq_repr, Nat.toList_repr] <;> rfl

theorem signed_injective : Function.Injective Digits.signed := by
  intro k k' h
  have hlist := congrArg String.toList h
  rw [toList_signed, toList_signed, List.cons.injEq] at hlist
  obtain ⟨hsign, hdigits⟩ := hlist
  have habs : k.natAbs = k'.natAbs := Nat.repr_injective (congrArg String.ofList hdigits)
  split at hsign <;> split at hsign
  · omega
  · exact absurd hsign (by decide)
  · exact absurd hsign (by decide)
  · omega

theorem stops_powerText (power : Option ℤ) : Stops Char.isDigit (powerText power) := by
  cases power with
  | none => exact stops_nil
  | some k => exact stops_cons (by decide)

theorem stops_partText (part : Option (List Char)) (power : Option ℤ) :
    Stops Char.isDigit (partText part ++ powerText power) := by
  cases part with
  | none => exact stops_powerText power
  | some digits => exact stops_cons (by decide)

theorem powerText_injective : Function.Injective powerText := by
  intro power power' h
  cases power with
  | none =>
      cases power' with
      | none => rfl
      | some k => cases h
  | some k =>
      cases power' with
      | none => cases h
      | some k' => rw [signed_injective (String.toList_inj.mp (List.cons.inj h).2)]

/-- What stands for an exponent has no point. -/
theorem powerText_ne_point (power : Option ℤ) (tail : List Char) :
    powerText power ≠ '.' :: tail := by
  cases power with
  | none => exact List.cons_ne_nil _ _ |>.symm
  | some k => exact fun h => absurd (List.cons.inj h).1 (by decide)

theorem text_ne_nil (l : Layout) : l.text ≠ [] := List.append_ne_nil_of_left_ne_nil l.whole_ne_nil _

/-- A text starts with a digit. -/
theorem isDigit_of_text_eq_cons {l : Layout} {c : Char} {tail : List Char}
    (h : l.text = c :: tail) : c.isDigit = true := by
  obtain ⟨first, rest, hwhole⟩ := List.exists_cons_of_ne_nil l.whole_ne_nil
  rw [text, hwhole, List.cons_append] at h
  exact (List.cons.inj h).1 ▸ l.whole_digits first (hwhole ▸ List.mem_cons_self)

theorem forall_mem_powerText {P : Char → Prop} (hdigit : ∀ c, c.isDigit = true → P c)
    (hmark : ∀ c ∈ marks, P c) (power : Option ℤ) : ∀ c ∈ powerText power, P c := by
  cases power with
  | none => exact List.forall_mem_nil _
  | some k =>
      rw [powerText, toList_signed]
      refine List.forall_mem_cons.mpr ⟨hmark _ (by decide), List.forall_mem_cons.mpr ⟨?_, ?_⟩⟩
      · split
        · exact hmark _ (by decide)
        · exact hmark _ (by decide)
      · exact fun c hc => hdigit c (isDigit_of_mem_toDigits _ c hc)

/-- A text consists of digits and marks. -/
theorem forall_mem_text {P : Char → Prop} (hdigit : ∀ c, c.isDigit = true → P c)
    (hmark : ∀ c ∈ marks, P c) (l : Layout) : ∀ c ∈ l.text, P c := by
  have hpower := forall_mem_powerText hdigit hmark l.power
  have hpart : ∀ c ∈ partText l.part, P c := by
    have hdigits := l.part_digits
    cases h : l.part with
    | none => exact List.forall_mem_nil _
    | some digits =>
        rw [h] at hdigits
        exact List.forall_mem_cons.mpr ⟨hmark _ (by decide), fun c hc => hdigit c (hdigits c hc)⟩
  exact List.forall_mem_append.mpr ⟨fun c hc => hdigit c (l.whole_digits c hc),
    List.forall_mem_append.mpr ⟨hpart, hpower⟩⟩

/-- A text tells its parts. -/
theorem eq_of_text_eq {l l' : Layout} (h : l.text = l'.text) : l = l' := by
  obtain ⟨hwhole, hrest⟩ := run_append_inj l.whole_digits l'.whole_digits
    (stops_partText l.part l.power) (stops_partText l'.part l'.power) h
  have hdigits := l.part_digits
  have hdigits' := l'.part_digits
  suffices hmarks : l.part = l'.part ∧ l.power = l'.power from
    Layout.ext hwhole hmarks.1 hmarks.2
  cases hp : l.part with
  | none =>
      rw [hp] at hrest
      cases hp' : l'.part with
      | none =>
          rw [hp'] at hrest
          exact ⟨rfl, powerText_injective hrest⟩
      | some part' =>
          rw [hp'] at hrest
          exact absurd hrest (powerText_ne_point _ _)
  | some part =>
      rw [hp] at hrest hdigits
      cases hp' : l'.part with
      | none =>
          rw [hp'] at hrest
          exact absurd hrest.symm (powerText_ne_point _ _)
      | some part' =>
          rw [hp'] at hrest hdigits'
          obtain ⟨rfl, hpower⟩ := run_append_inj hdigits hdigits' (stops_powerText _)
            (stops_powerText _) (List.cons.inj hrest).2
          exact ⟨rfl, powerText_injective hpower⟩

/-- A layout with the digits of a decimal, maybe with zeros behind them,
stands for the decimal, if the place of the point makes up for the zeros. -/
theorem value_eq {l : Layout} {d : Digits} (shift : ℕ)
    (hdigits : Nat.ofDigitChars 10 (l.whole ++ l.part.getD []) 0 = 10 ^ shift * d.digits)
    (hpower : l.power.getD 0 - (l.part.getD []).length = d.exponent - shift) :
    l.value = d.value := by
  rw [value, hdigits, hpower, Digits.value, Nat.cast_mul, Nat.cast_pow, Nat.cast_ofNat,
    mul_right_comm, ← zpow_natCast, ← zpow_add₀ (by norm_num), add_sub_cancel, mul_comm]

end Layout

/-! ## The ways to write a decimal -/

/-- The digits of a number do not start with a zero. -/
theorem head?_toDigits_ne_zero {n : ℕ} (h : 0 < n) : (Nat.toDigits 10 n).head? ≠ some '0' := by
  induction n using Nat.strong_induction_on with
  | h n ih =>
      rw [Nat.toDigits_eq_if (by decide)]
      split
      next hsmall =>
        have hdigit : ∀ d < 10, 0 < d → [Nat.digitChar d].head? ≠ some '0' := by decide
        exact hdigit n hsmall h
      next hlarge =>
        rw [List.head?_append_of_ne_nil _ Nat.toDigits_ne_nil]
        exact ih (n / 10) (by omega) (by omega)

theorem isDigit_of_mem_zeros (n : ℕ) : ∀ c ∈ List.replicate n '0', c.isDigit = true := by
  intro c hc
  rw [List.eq_of_mem_replicate hc]
  rfl

theorem toList_zeros (n : ℕ) : (Digits.zeros n).toList = List.replicate n '0' :=
  String.toList_ofList

/-! The marks of a decimal, as characters. -/

theorem toList_point : ".".toList = ['.'] := rfl

theorem toList_pointZero : ".0".toList = ['.', '0'] := rfl

theorem toList_zeroPoint : "0.".toList = ['0', '.'] := rfl

theorem toList_powerMark : "e".toList = ['e'] := rfl

/-- Some characters have the parts of a decimal, and these stand for it. -/
def Writes (cs : List Char) (d : Digits) : Prop :=
  ∃ l : Layout, l.text = cs ∧ l.value = d.value

section
variable {d : Digits} {whole part : List Char}

theorem writes_point (hne : whole ≠ []) (hwhole : ∀ c ∈ whole, c.isDigit = true)
    (hlead : whole.head? = some '0' → whole = ['0']) (hpartne : part ≠ [])
    (hpart : ∀ c ∈ part, c.isDigit = true) (shift : ℕ)
    (hdigits : Nat.ofDigitChars 10 (whole ++ part) 0 = 10 ^ shift * d.digits)
    (hplace : (part.length : ℤ) = shift - d.exponent) : Writes (whole ++ '.' :: part) d := by
  refine ⟨⟨whole, some part, none, hne, hwhole, hlead, Option.some_inj.not.mpr hpartne, hpart⟩, ?_,
    Layout.value_eq shift hdigits ?_⟩
  · simp only [Layout.text, Layout.partText, Layout.powerText, List.append_nil]
  · simp only [Option.getD_none, Option.getD_some]
    omega

theorem writes_power {power : ℤ} (hne : whole ≠ []) (hwhole : ∀ c ∈ whole, c.isDigit = true)
    (hlead : whole.head? = some '0' → whole = ['0'])
    (hdigits : Nat.ofDigitChars 10 whole 0 = d.digits) (hplace : power = d.exponent) :
    Writes (whole ++ 'e' :: (Digits.signed power).toList) d := by
  refine ⟨⟨whole, none, some power, hne, hwhole, hlead, (nomatch ·), List.forall_mem_nil _⟩, rfl,
    Layout.value_eq 0 ?_ ?_⟩
  · rw [Option.getD_none, List.append_nil, hdigits, Nat.pow_zero, Nat.one_mul]
  · simp only [Option.getD_none, Option.getD_some, List.length_nil]
    omega

theorem writes_point_power {power : ℤ} (hne : whole ≠ [])
    (hwhole : ∀ c ∈ whole, c.isDigit = true) (hlead : whole.head? = some '0' → whole = ['0'])
    (hpartne : part ≠ []) (hpart : ∀ c ∈ part, c.isDigit = true)
    (hdigits : Nat.ofDigitChars 10 (whole ++ part) 0 = d.digits)
    (hplace : power - part.length = d.exponent) :
    Writes (whole ++ '.' :: (part ++ 'e' :: (Digits.signed power).toList)) d := by
  refine ⟨⟨whole, some part, some power, hne, hwhole, hlead, Option.some_inj.not.mpr hpartne,
    hpart⟩, rfl, Layout.value_eq 0 ?_ ?_⟩
  · rw [Option.getD_some, hdigits, Nat.pow_zero, Nat.one_mul]
  · simp only [Option.getD_some]
    omega

end

/-- A decimal is written with the parts that it has, if no power of ten goes
with zero. -/
theorem writes_write (style : Style) {d : Digits} (hd : d.digits = 0 → d.exponent = 0) :
    Writes (d.write style).toList d := by
  have hdigits := isDigit_of_mem_toDigits d.digits
  have hvalue : Nat.ofDigitChars 10 (Nat.toDigits 10 d.digits) 0 = d.digits :=
    Nat.ofDigitChars_ten_toDigits
  have hne : Nat.toDigits 10 d.digits ≠ [] := Nat.toDigits_ne_nil
  have hlead : (Nat.toDigits 10 d.digits).head? = some '0' →
      Nat.toDigits 10 d.digits = ['0'] ∧ d.exponent = 0 := by
    intro hhead
    have hzero : d.digits = 0 := Nat.eq_zero_of_not_pos fun h => head?_toDigits_ne_zero h hhead
    exact ⟨hzero ▸ rfl, hd hzero⟩
  have htext : toString d.digits = String.ofList (Nat.toDigits 10 d.digits) :=
    Nat.toString_eq_ofList_toDigits
  simp only [Digits.write, htext, ← String.length_toList, String.toList_ofList]
  generalize Nat.toDigits 10 d.digits = ds at hdigits hvalue hne hlead ⊢
  split
  next hpoint =>
    rw [Bool.and_eq_true, decide_eq_true_iff, decide_eq_true_iff] at hpoint
    split
    next hlarge =>
      -- Zeros up to the point and one behind it.
      simp only [String.toList_append, String.toList_ofList, toList_zeros, toList_pointZero]
      show Writes (_ ++ '.' :: List.replicate 1 '0') d
      refine writes_point (List.append_ne_nil_of_left_ne_nil hne _)
        (List.forall_mem_append.mpr ⟨hdigits, isDigit_of_mem_zeros _⟩) (fun hhead => ?_)
        (List.cons_ne_nil _ _) (isDigit_of_mem_zeros 1) (d.exponent.toNat + 1) ?_ ?_
      · rw [List.head?_append_of_ne_nil _ hne] at hhead
        obtain ⟨hone, hexponent⟩ := hlead hhead
        rw [hone, hexponent]
        rfl
      · rw [List.append_assoc, Nat.ofDigitChars_append, hvalue, List.replicate_append_replicate,
          Nat.ofDigitChars_replicate_zero]
      · rw [List.length_replicate]
        omega
    next hsmall =>
      -- The point among the digits.
      simp only [String.toList_append, String.toList_ofList, toList_point, List.append_assoc,
        List.cons_append, List.nil_append]
      have htake : ds.take (ds.length + d.exponent).toNat ≠ [] :=
        List.ne_nil_of_length_pos (by rw [List.length_take]; omega)
      refine writes_point htake (fun c hc => hdigits c (List.mem_of_mem_take hc)) (fun hhead => ?_)
        (List.ne_nil_of_length_pos (by rw [List.length_drop]; omega))
        (fun c hc => hdigits c (List.mem_of_mem_drop hc)) 0 ?_ ?_
      · have hds : ds.head? = some '0' := by
          rw [← hhead, ← List.head?_append_of_ne_nil _ htake, List.take_append_drop]
        exact absurd (hlead hds).2 (by omega)
      · rw [List.take_append_drop, hvalue, Nat.pow_zero, Nat.one_mul]
      · rw [List.length_drop]
        omega
  next =>
    split
    next hlow =>
      -- Zeros between the point and the digits.
      rw [Bool.and_eq_true, decide_eq_true_iff, decide_eq_true_iff] at hlow
      simp only [String.toList_append, String.toList_ofList, toList_zeros, toList_zeroPoint,
        List.cons_append, List.nil_append]
      show Writes (List.replicate 1 '0' ++ '.' :: _) d
      refine writes_point (List.cons_ne_nil _ _) (isDigit_of_mem_zeros 1) (fun _ => rfl)
        (List.append_ne_nil_of_right_ne_nil _ hne)
        (List.forall_mem_append.mpr ⟨isDigit_of_mem_zeros _, hdigits⟩) 0 ?_ ?_
      · rw [← List.append_assoc, List.replicate_append_replicate, Nat.ofDigitChars_append,
          Nat.ofDigitChars_replicate_zero, Nat.mul_zero, hvalue, Nat.pow_zero, Nat.one_mul]
      · rw [List.length_append, List.length_replicate]
        omega
    next =>
      split
      next =>
        -- A digit and a power, and in the next case digits behind a point too.
        simp only [String.toList_append, String.toList_ofList, toList_powerMark]
        refine writes_power hne hdigits (fun hhead => (hlead hhead).1) hvalue ?_
        rw [List.length_singleton]
        omega
      next first rest hmore _ _ =>
        simp only [String.toList_append, String.toList_ofList, toList_powerMark, toList_point,
          List.append_assoc, List.cons_append, List.nil_append]
        obtain ⟨hfirst, hrest⟩ := List.forall_mem_cons.mp hdigits
        show Writes ([first] ++ '.' :: (rest ++ 'e' :: _)) d
        refine writes_point_power (List.cons_ne_nil _ _) (List.forall_mem_singleton.mpr hfirst)
          (fun hhead => congrArg ([·]) (Option.some.inj hhead)) ?_ hrest hvalue ?_
        · rintro rfl
          exact hmore rfl
        rw [List.length_cons]
        omega
      next => exact absurd rfl hne

/-! ## Floats -/

/-- The decimal that is written for the bits of a float without its sign. -/
def ofMagnitude (magnitude : ℕ) : Digits :=
  if magnitude = 0 then ⟨0, 0⟩ else (Binary.ofBits magnitude).shortest

theorem reads_ofMagnitude {magnitude : ℕ} (hpos : 0 < magnitude) (h : magnitude < 2 ^ 63) :
    (Binary.ofBits magnitude).Reads (ofMagnitude magnitude).value := by
  rw [ofMagnitude, if_neg hpos.ne']
  exact (Binary.isFloat_ofBits hpos h).shortest_reads

theorem value_ofMagnitude_pos {magnitude : ℕ} (hpos : 0 < magnitude) (h : magnitude < 2 ^ 63) :
    0 < (ofMagnitude magnitude).value :=
  (Binary.isFloat_ofBits hpos h).pos_of_reads (reads_ofMagnitude hpos h)

theorem value_ofMagnitude_zero : (ofMagnitude 0).value = 0 := by
  rw [ofMagnitude, if_pos rfl, Digits.value, Nat.cast_zero, zero_mul]

/-- The decimal of a float is written with the parts that it has. -/
theorem writes_ofMagnitude {magnitude : ℕ} (h : magnitude < 2 ^ 63) :
    Writes ((ofMagnitude magnitude).write .report).toList (ofMagnitude magnitude) := by
  refine writes_write .report fun hzero => ?_
  rcases Nat.eq_zero_or_pos magnitude with rfl | hpos
  · rw [ofMagnitude, if_pos rfl]
  · have hvalue := value_ofMagnitude_pos hpos h
    rw [Digits.value, hzero, Nat.cast_zero, zero_mul] at hvalue
    exact absurd hvalue (lt_irrefl 0)

/-- No two floats have decimals that stand for the same. -/
theorem eq_of_value_ofMagnitude_eq {m m' : ℕ} (h : m < 2 ^ 63) (h' : m' < 2 ^ 63)
    (hvalue : (ofMagnitude m).value = (ofMagnitude m').value) : m = m' := by
  rcases Nat.eq_zero_or_pos m with rfl | hpos
  · rcases Nat.eq_zero_or_pos m' with rfl | hpos'
    · rfl
    · rw [value_ofMagnitude_zero] at hvalue
      exact absurd hvalue (value_ofMagnitude_pos hpos' h').ne
  · rcases Nat.eq_zero_or_pos m' with rfl | hpos'
    · rw [value_ofMagnitude_zero] at hvalue
      exact absurd hvalue (value_ofMagnitude_pos hpos h).ne'
    · have hreads := reads_ofMagnitude hpos h
      rw [hvalue] at hreads
      exact Binary.eq_of_reads h h' hreads (reads_ofMagnitude hpos' h')

/-- The sign of a float, as it is written. -/
def signText (x : Float) : String := if x.toBits.toNat / twoTo 63 = 1 then "-" else ""

theorem mem_signText {x : Float} {c : Char} (h : c ∈ (signText x).toList) : c = '-' := by
  rw [signText] at h
  split at h
  · exact List.mem_singleton.mp h
  · exact absurd h List.not_mem_nil

/-- The bits of a float without its sign. -/
def magnitude (x : Float) : ℕ := x.toBits.toNat % 2 ^ 63

theorem write_zero : (⟨0, 0⟩ : Digits).write .report = "0.0" := by decide

theorem magnitude_lt_two_pow (x : Float) : magnitude x < 2 ^ 63 := Nat.mod_lt _ (by decide)

/-- A float is written as its sign and the decimal of its magnitude. -/
theorem writeFloat?_eq (x : Float) :
    writeFloat? x = if 0x7ff0000000000000 ≤ magnitude x then none
      else some (signText x ++ (ofMagnitude (magnitude x)).write .report) := by
  have hmagnitude : x.toBits.toNat % twoTo 63 = magnitude x := rfl
  simp only [writeFloat?, hmagnitude]
  split
  · rfl
  · split
    next hzero => rw [ofMagnitude, if_pos hzero, write_zero, signText]
    next hpos => rw [ofMagnitude, if_neg hpos, signText]

/-- What is written of a float is not empty, and consists of digits and
marks. -/
theorem chars_of_writeFloat? {x : Float} {text : String} (h : writeFloat? x = some text) :
    text.toList ≠ [] ∧ ∀ c ∈ text.toList, c.isDigit = true ∨ c ∈ Layout.marks := by
  rw [writeFloat?_eq] at h
  split at h
  · cases h
  · obtain ⟨l, hl, -⟩ := writes_ofMagnitude (magnitude_lt_two_pow x)
    obtain rfl := Option.some.inj h
    rw [String.toList_append, ← hl]
    refine ⟨List.append_ne_nil_of_right_ne_nil _ l.text_ne_nil, List.forall_mem_append.mpr ⟨?_, ?_⟩⟩
    · intro c hc
      rw [mem_signText hc]
      exact .inr (by decide)
    · exact l.forall_mem_text (fun _ => .inl) fun _ => .inr

/-- A sign is told apart from the decimal behind it. -/
theorem sign_append_inj {x y : Float} {l l' : Layout}
    (h : (signText x).toList ++ l.text = (signText y).toList ++ l'.text) :
    signText x = signText y ∧ l = l' := by
  have hsign : ∀ x, ∀ c ∈ (signText x).toList, (c == '-') = true :=
    fun _ _ hc => beq_iff_eq.mpr (mem_signText hc)
  have hstops : ∀ l : Layout, Stops (· == '-') l.text := by
    intro l c tail hcons
    refine beq_false_of_ne ?_
    rintro rfl
    exact absurd (Layout.isDigit_of_text_eq_cons hcons) (by decide)
  obtain ⟨hsigns, htexts⟩ := run_append_inj (hsign x) (hsign y) (hstops l) (hstops l') h
  exact ⟨String.toList_inj.mp hsigns, Layout.eq_of_text_eq htexts⟩

open Float.Model in
/-- The magnitude of a finite float is below that of infinity. -/
theorem magnitude_lt {x : Float} (h : x.isFinite = true) : magnitude x < 0x7ff0000000000000 := by
  have hunpack : x.isFinite = (UnpackedFloat.unpack .binary64 x.toBits.toBitVec).isFinite := rfl
  rw [hunpack, UnpackedFloat.unpack] at h
  refine Nat.lt_of_not_le fun hlarge => ?_
  rw [magnitude] at hlarge
  have hexponent : @UnpackedFloat.unpackExponent .binary64 x.toBits.toBitVec = -1#_ := by
    apply BitVec.eq_of_toNat_eq
    rw [UnpackedFloat.unpackExponent, BitVec.toNat_cast, BitVec.extractLsb_toNat]
    have hlt := x.toBits.toNat_lt
    change (x.toBits.toNat >>> 52) % 2 ^ 11 = 2 ^ 11 - 1
    rw [Nat.shiftRight_eq_div_pow]
    omega
  simp only [hexponent, if_true] at h
  split at h <;> cases h

/-- A finite float is written. -/
theorem exists_writeFloat?_eq_some {x : Float} (h : x.isFinite = true) :
    ∃ text, writeFloat? x = some text :=
  ⟨_, (writeFloat?_eq x).trans (if_neg (magnitude_lt h).not_ge)⟩

/-- A float is its sign and its magnitude. -/
theorem eq_of_signText_eq {x y : Float} (hsign : signText x = signText y)
    (hmagnitude : magnitude x = magnitude y) : x = y := by
  have hbits : x.toBits = y.toBits := by
    have hx := x.toBits.toNat_lt
    have hy := y.toBits.toNat_lt
    simp only [magnitude] at hmagnitude
    refine UInt64.toNat_inj.mp ?_
    change (if x.toBits.toNat / 2 ^ 63 = 1 then "-" else "") =
      (if y.toBits.toNat / 2 ^ 63 = 1 then "-" else "") at hsign
    split at hsign <;> split at hsign
    · omega
    · exact absurd hsign (by decide)
    · exact absurd hsign (by decide)
    · omega
  obtain ⟨⟨bits, hbits⟩⟩ := x
  obtain ⟨⟨bits', hbits'⟩⟩ := y
  obtain rfl : bits = bits' := hbits
  rfl

/-- The text of a finite float tells the float. -/
theorem eq_of_writeFloat?_eq {x y : Float} (hx : x.isFinite = true) (hy : y.isFinite = true)
    (h : writeFloat? x = writeFloat? y) : x = y := by
  have hxlt := magnitude_lt hx
  have hylt := magnitude_lt hy
  obtain ⟨l, hl, hvalue⟩ := writes_ofMagnitude (magnitude_lt_two_pow x)
  obtain ⟨l', hl', hvalue'⟩ := writes_ofMagnitude (magnitude_lt_two_pow y)
  rw [writeFloat?_eq, writeFloat?_eq, if_neg hxlt.not_ge, if_neg hylt.not_ge] at h
  have htexts := congrArg String.toList (Option.some.inj h)
  rw [String.toList_append, String.toList_append, ← hl, ← hl'] at htexts
  obtain ⟨hsign, rfl⟩ := sign_append_inj htexts
  exact eq_of_signText_eq hsign (eq_of_value_ofMagnitude_eq (magnitude_lt_two_pow x)
    (magnitude_lt_two_pow y) (hvalue.symm.trans hvalue'))

end SourceMetrics.Decimal

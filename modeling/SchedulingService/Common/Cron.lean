import SchedulingService.Common.Validation
import SchedulingService.Lib.Numerals

/-!
# Cron expressions

The grammar of the documentation, field by field, against `CRON_REGEX`. The
expression lists the numbers of each field and uses the same list for the steps.

Main results:

* `isValidCronString_iff` — the language of the expression as a grammar;
* `isValid_iff_documented_iff` — which strings the validator and the
  documentation agree on.
-/

namespace SchedulingService.Common

open Lib.Numerals

/-! ## The grammar -/

/-- A field: `*`, a number from `low` to `high`, or `*/n` with `n` from `step` to
`high`. -/
def Shaped (low high step : Nat) (f : List Char) : Prop :=
  f = ['*'] ∨ (∃ n, low ≤ n ∧ n ≤ high ∧ f = Nat.toDigits 10 n) ∨
    ∃ n, step ≤ n ∧ n ≤ high ∧ f = '*' :: '/' :: Nat.toDigits 10 n

/-- The fields between single spaces. -/
def cronFields (s : String) : List (List Char) := s.toList.splitOn ' '

/-- Five fields, one of each kind. -/
def Five (minute hour dayOfMonth month dayOfWeek : List Char → Prop) (s : String) : Prop :=
  ∃ f₁ f₂ f₃ f₄ f₅, cronFields s = [f₁, f₂, f₃, f₄, f₅] ∧
    minute f₁ ∧ hour f₂ ∧ dayOfMonth f₃ ∧ month f₄ ∧ dayOfWeek f₅

/-- The format of the documentation, where steps are positive. -/
def Documented : String → Prop :=
  Five (Shaped 0 59 1) (Shaped 0 23 1) (Shaped 1 31 1) (Shaped 1 12 1) (Shaped 0 7 1)

/-- The values from `low` to `high` that a field matches. Every `n`-th value is one
that leaves no remainder, and by zero the remainder is NaN. -/
def matchingValues (low high : Nat) (f : List Char) : List Nat :=
  (List.range' low (high + 1 - low)).filter fun v =>
    if f = ['*'] then true
    else if f.take 2 = ['*', '/'] then
      value (f.drop 2) ≠ 0 && (v - low) % value (f.drop 2) = 0
    else v = value f

/-- Every field matches something. -/
def NeverEmpty : String → Prop :=
  Five (matchingValues 0 59 · ≠ []) (matchingValues 0 23 · ≠ []) (matchingValues 1 31 · ≠ [])
    (matchingValues 1 12 · ≠ []) (matchingValues 0 7 · ≠ [])

/-! ## Fields -/

theorem Shaped.mono {low high step high' step' : Nat} {f : List Char} (h : Shaped low high step f)
    (hhigh : high ≤ high') (hstep : step' ≤ step) : Shaped low high' step' f := by
  rcases h with h | ⟨n, hlow, hn, h⟩ | ⟨n, hlow, hn, h⟩
  · exact .inl h
  · exact .inr (.inl ⟨n, hlow, hn.trans hhigh, h⟩)
  · exact .inr (.inr ⟨n, hstep.trans hlow, hn.trans hhigh, h⟩)

theorem Shaped.notMem_space {low high step : Nat} {f : List Char} (h : Shaped low high step f) :
    ' ' ∉ f := by
  have hdigits : ∀ n, ' ' ∉ Nat.toDigits 10 n := fun n hmem =>
    absurd ((isNumeral_toDigits n).2 _ hmem) (by decide)
  rcases h with rfl | ⟨n, -, -, rfl⟩ | ⟨n, -, -, rfl⟩
  · decide
  · exact hdigits n
  · simp [hdigits n]

theorem digits_ne_star (n : Nat) (rest : List Char) : Nat.toDigits 10 n ≠ '*' :: rest := by
  intro h
  have hdigit := (isNumeral_toDigits n).2 '*' (by rw [h]; exact List.mem_cons_self)
  exact absurd hdigit (by decide)

/-- A step is told by its text. -/
theorem step_inj {n m : Nat}
    (h : '*' :: '/' :: Nat.toDigits 10 n = '*' :: '/' :: Nat.toDigits 10 m) : n = m :=
  toDigits_inj.mp (List.cons.inj (List.cons.inj h).2).2

/-- The words that a list of numbers matches. -/
def numerals (low high : Nat) : List (List Char) :=
  (List.range' low (high + 1 - low)).map (Nat.toDigits 10)

theorem mem_numerals {low high : Nat} (h : low ≤ high + 1) {f : List Char} :
    f ∈ numerals low high ↔ ∃ n, low ≤ n ∧ n ≤ high ∧ f = Nat.toDigits 10 n := by
  rw [numerals, List.mem_map]
  constructor
  · rintro ⟨n, hn, rfl⟩
    rw [List.mem_range'_1] at hn
    exact ⟨n, hn.1, by omega, rfl⟩
  · rintro ⟨n, hlow, hhigh, rfl⟩
    exact ⟨n, List.mem_range'_1.mpr ⟨hlow, by omega⟩, rfl⟩

/-- A field whose numbers are those from `low` to `high` has the same steps. -/
theorem mem_cronField {r : RegularExpression Char} {low high : Nat}
    (hfree : repetitionFree r = true) (hwords : words r = numerals low high)
    (h : low ≤ high + 1) {f : List Char} :
    f ∈ (cronField r).matches' ↔ Shaped low high low f := by
  have hvalue : ∀ g, g ∈ r.matches' ↔ ∃ n, low ≤ n ∧ n ≤ high ∧ g = Nat.toDigits 10 n := fun g => by
    rw [mem_words hfree, hwords, mem_numerals h]
  constructor
  · intro hmem
    rcases (Language.mem_add _ _ f).mp hmem with hmem | hmem
    · rcases (Language.mem_add _ _ f).mp hmem with rfl | hmem
      · exact .inl rfl
      · exact .inr (.inl ((hvalue f).mp hmem))
    · obtain ⟨_, hslash, g, hg, rfl⟩ := Language.mem_mul.mp hmem
      obtain ⟨_, rfl, _, rfl, rfl⟩ := Language.mem_mul.mp hslash
      obtain ⟨n, hlow, hhigh, rfl⟩ := (hvalue g).mp hg
      exact .inr (.inr ⟨n, hlow, hhigh, rfl⟩)
  · rintro (rfl | hg | ⟨n, hlow, hhigh, rfl⟩)
    · exact .inl (.inl rfl)
    · exact .inl (.inr ((hvalue f).mpr hg))
    · exact .inr (Language.mem_mul.mpr ⟨['*', '/'], Language.mem_mul.mpr ⟨_, rfl, _, rfl, rfl⟩,
        _, (hvalue _).mpr ⟨n, hlow, hhigh, rfl⟩, rfl⟩)

/-- What a field matches is empty only for the step zero. -/
theorem matchingValues_eq_nil_iff {low high step : Nat} (hle : low ≤ high) {f : List Char}
    (h : Shaped low high step f) : matchingValues low high f = [] ↔ f = ['*', '/', '0'] := by
  have hrange : ∀ {v}, low ≤ v → v ≤ high → v ∈ List.range' low (high + 1 - low) := by
    intro v hlow hhigh
    exact List.mem_range'_1.mpr ⟨hlow, by omega⟩
  rcases h with rfl | ⟨n, hlow, hhigh, rfl⟩ | ⟨n, -, -, rfl⟩
  · -- a star matches every value
    refine iff_of_false (List.ne_nil_of_mem (a := low) ?_) (by decide)
    exact List.mem_filter.mpr ⟨hrange (Nat.le_refl _) hle, rfl⟩
  · -- a number matches itself
    refine iff_of_false (List.ne_nil_of_mem (a := n) ?_) (digits_ne_star n _)
    have hstar : Nat.toDigits 10 n ≠ ['*'] := digits_ne_star n []
    have hstep : (Nat.toDigits 10 n).take 2 ≠ ['*', '/'] := by
      intro htake
      have hsplit := List.take_append_drop 2 (Nat.toDigits 10 n)
      rw [htake] at hsplit
      exact digits_ne_star n _ hsplit.symm
    refine List.mem_filter.mpr ⟨hrange hlow hhigh, ?_⟩
    rw [if_neg hstar, if_neg hstep, value_toDigits]
    exact decide_eq_true rfl
  · have htake : ('*' :: '/' :: Nat.toDigits 10 n).take 2 = ['*', '/'] := rfl
    have hvalue : value (('*' :: '/' :: Nat.toDigits 10 n).drop 2) = n := value_toDigits n
    have hstar : '*' :: '/' :: Nat.toDigits 10 n ≠ ['*'] := by simp
    simp only [matchingValues, if_neg hstar, if_pos htake, hvalue]
    by_cases hn : n = 0
    · -- nothing is left by zero
      subst hn
      exact iff_of_true (by simp) rfl
    · -- the lowest value is matched
      refine iff_of_false (List.ne_nil_of_mem (a := low) ?_) fun heq => ?_
      · exact List.mem_filter.mpr ⟨hrange (Nat.le_refl _) hle, by simp [hn]⟩
      · have hzero : n = 0 := step_inj heq
        exact hn hzero

/-! ## The expression -/

/-- Fields without spaces are found between the spaces. -/
theorem cronFields_iff {f₁ f₂ f₃ f₄ f₅ : List Char} (h₁ : ' ' ∉ f₁) (h₂ : ' ' ∉ f₂) (h₃ : ' ' ∉ f₃)
    (h₄ : ' ' ∉ f₄) (h₅ : ' ' ∉ f₅) (s : String) :
    cronFields s = [f₁, f₂, f₃, f₄, f₅] ↔
      s.toList = f₁ ++ [' '] ++ f₂ ++ [' '] ++ f₃ ++ [' '] ++ f₄ ++ [' '] ++ f₅ := by
  have hjoin : [' '].intercalate [f₁, f₂, f₃, f₄, f₅] =
      f₁ ++ [' '] ++ f₂ ++ [' '] ++ f₃ ++ [' '] ++ f₄ ++ [' '] ++ f₅ := by
    simp [List.intercalate, List.intersperse]
  rw [← hjoin]
  constructor
  · intro h
    rw [← h, cronFields, List.intercalate_splitOn]
  · intro h
    rw [cronFields, h]
    exact List.splitOn_intercalate ' ' (by simp [h₁, h₂, h₃, h₄, h₅]) (by simp)

theorem mem_spaced {P Q : RegularExpression Char} {x : List Char} :
    x ∈ (P * RegularExpression.char ' ' * Q).matches' ↔
      ∃ a b, x = a ++ [' '] ++ b ∧ a ∈ P.matches' ∧ b ∈ Q.matches' := by
  constructor
  · intro h
    obtain ⟨_, hspace, b, hb, rfl⟩ := Language.mem_mul.mp h
    obtain ⟨a, ha, _, rfl, rfl⟩ := Language.mem_mul.mp hspace
    exact ⟨a, b, rfl, ha, hb⟩
  · rintro ⟨a, b, rfl, ha, hb⟩
    exact Language.mem_mul.mpr ⟨_, Language.mem_mul.mpr ⟨a, ha, _, rfl, rfl⟩, b, hb, rfl⟩

/-- **The language** of `CRON_REGEX`. -/
theorem isValidCronString_iff (s : String) : isValidCronString s = true ↔
    Five (Shaped 0 59 0) (Shaped 0 23 0) (Shaped 1 31 1) (Shaped 1 12 1) (Shaped 0 6 0) s := by
  -- the words of each list of numbers are finitely many
  have hminute {f : List Char} : f ∈ (cronField minuteValue).matches' ↔ Shaped 0 59 0 f :=
    mem_cronField (by decide) (by decide +kernel) (by decide)
  have hhour {f : List Char} : f ∈ (cronField hourValue).matches' ↔ Shaped 0 23 0 f :=
    mem_cronField (by decide) (by decide +kernel) (by decide)
  have hday {f : List Char} : f ∈ (cronField dayOfMonthValue).matches' ↔ Shaped 1 31 1 f :=
    mem_cronField (by decide) (by decide +kernel) (by decide)
  have hmonth {f : List Char} : f ∈ (cronField monthValue).matches' ↔ Shaped 1 12 1 f :=
    mem_cronField (by decide) (by decide +kernel) (by decide)
  have hweek {f : List Char} : f ∈ (cronField dayOfWeekValue).matches' ↔ Shaped 0 6 0 f :=
    mem_cronField (by decide) (by decide +kernel) (by decide)
  -- the empty string is none of the language anyway
  have hmatch : isValidCronString s = true ↔ s.toList ∈ cronRegex.matches' := by
    rw [isValidCronString, Bool.and_eq_true, RegularExpression.rmatch_iff_matches',
      decide_eq_true_eq, and_iff_right_iff_imp]
    rintro h rfl
    rw [← RegularExpression.rmatch_iff_matches'] at h
    exact absurd h (by decide)
  rw [hmatch]
  constructor
  · intro h
    -- from the last space to the first
    obtain ⟨_, f₅, hs, h, h₅⟩ := mem_spaced.mp h
    obtain ⟨_, f₄, rfl, h, h₄⟩ := mem_spaced.mp h
    obtain ⟨_, f₃, rfl, h, h₃⟩ := mem_spaced.mp h
    obtain ⟨f₁, f₂, rfl, h₁, h₂⟩ := mem_spaced.mp h
    rw [hminute] at h₁
    rw [hhour] at h₂
    rw [hday] at h₃
    rw [hmonth] at h₄
    rw [hweek] at h₅
    refine ⟨f₁, f₂, f₃, f₄, f₅, ?_, h₁, h₂, h₃, h₄, h₅⟩
    exact (cronFields_iff h₁.notMem_space h₂.notMem_space h₃.notMem_space h₄.notMem_space
      h₅.notMem_space s).mpr hs
  · rintro ⟨f₁, f₂, f₃, f₄, f₅, hfields, h₁, h₂, h₃, h₄, h₅⟩
    rw [cronFields_iff h₁.notMem_space h₂.notMem_space h₃.notMem_space h₄.notMem_space
      h₅.notMem_space] at hfields
    rw [← hminute] at h₁
    rw [← hhour] at h₂
    rw [← hday] at h₃
    rw [← hmonth] at h₄
    rw [← hweek] at h₅
    exact mem_spaced.mpr ⟨_, f₅, hfields, mem_spaced.mpr ⟨_, f₄, rfl, mem_spaced.mpr
      ⟨_, f₃, rfl, mem_spaced.mpr ⟨f₁, f₂, rfl, h₁, h₂⟩, h₃⟩, h₄⟩, h₅⟩

/-! ## Against the documentation -/

/-- As documented, but for steps of zero. -/
def AlmostDocumented : String → Prop :=
  Five (Shaped 0 59 0) (Shaped 0 23 0) (Shaped 1 31 1) (Shaped 1 12 1) (Shaped 0 7 0)

def HasZeroStep (s : String) : Prop := ['*', '/', '0'] ∈ cronFields s

/-- The day of the week is 7, or a step of 7. -/
def EndsInSeven (s : String) : Prop :=
  (cronFields s).getLast? = some ['7'] ∨ (cronFields s).getLast? = some ['*', '/', '7']

/-- Zero is the only step that is too small. -/
theorem Shaped.step_one_iff {low high : Nat} {f : List Char} (h : Shaped low high 0 f) :
    Shaped low high 1 f ↔ f ≠ ['*', '/', '0'] := by
  constructor
  · rintro (rfl | ⟨n, -, -, rfl⟩ | ⟨n, hn, -, rfl⟩)
    · decide
    · exact digits_ne_star n _
    · intro heq
      have hzero : n = 0 := step_inj heq
      omega
  · intro hne
    rcases h with h | h | ⟨n, -, hhigh, rfl⟩
    · exact .inl h
    · exact .inr (.inl h)
    · have hn : n ≠ 0 := by
        rintro rfl
        exact hne rfl
      exact .inr (.inr ⟨n, by omega, hhigh, rfl⟩)

/-- Seven is the only number that is too large. -/
theorem Shaped.six_iff {f : List Char} (h : Shaped 0 7 0 f) :
    Shaped 0 6 0 f ↔ f ≠ ['7'] ∧ f ≠ ['*', '/', '7'] := by
  constructor
  · rintro (rfl | ⟨n, -, hn, rfl⟩ | ⟨n, -, hn, rfl⟩)
    · decide
    · refine ⟨fun heq => ?_, digits_ne_star n _⟩
      have hseven : n = 7 := toDigits_inj.mp heq
      omega
    · refine ⟨fun heq => absurd (congrArg List.head? heq) (by simp), fun heq => ?_⟩
      have hseven : n = 7 := step_inj heq
      omega
  · rintro ⟨hnumber, hstep⟩
    rcases h with h | ⟨n, hlow, hhigh, rfl⟩ | ⟨n, hlow, hhigh, rfl⟩
    · exact .inl h
    · have hn : n ≠ 7 := by
        rintro rfl
        exact hnumber rfl
      exact .inr (.inl ⟨n, hlow, by omega, rfl⟩)
    · have hn : n ≠ 7 := by
        rintro rfl
        exact hstep rfl
      exact .inr (.inr ⟨n, hlow, by omega, rfl⟩)

section Agreement

variable {s : String}

theorem five_iff {P₁ P₂ P₃ P₄ P₅ : List Char → Prop} {f₁ f₂ f₃ f₄ f₅ : List Char}
    (h : cronFields s = [f₁, f₂, f₃, f₄, f₅]) :
    Five P₁ P₂ P₃ P₄ P₅ s ↔ P₁ f₁ ∧ P₂ f₂ ∧ P₃ f₃ ∧ P₄ f₄ ∧ P₅ f₅ := by
  constructor
  · rintro ⟨g₁, g₂, g₃, g₄, g₅, hg, hP⟩
    rw [h] at hg
    cases hg
    exact hP
  · exact fun hP => ⟨f₁, f₂, f₃, f₄, f₅, h, hP⟩

theorem AlmostDocumented.isValid_iff (h : AlmostDocumented s) :
    isValidCronString s = true ↔ ¬ EndsInSeven s := by
  obtain ⟨f₁, f₂, f₃, f₄, f₅, hfields, h₁, h₂, h₃, h₄, h₅⟩ := h
  have hlast : (cronFields s).getLast? = some f₅ := by rw [hfields]; rfl
  rw [isValidCronString_iff, five_iff hfields, EndsInSeven, hlast, h₅.six_iff, Option.some.injEq,
    Option.some.injEq, not_or]
  exact ⟨fun h => h.2.2.2.2, fun h => ⟨h₁, h₂, h₃, h₄, h⟩⟩

theorem AlmostDocumented.documented_iff (h : AlmostDocumented s) :
    Documented s ↔ ¬ HasZeroStep s := by
  obtain ⟨f₁, f₂, f₃, f₄, f₅, hfields, h₁, h₂, h₃, h₄, h₅⟩ := h
  -- days of the month and months have no step zero anyway
  have hzero₃ := (h₃.mono (Nat.le_refl _) (Nat.zero_le _)).step_one_iff.mp h₃
  have hzero₄ := (h₄.mono (Nat.le_refl _) (Nat.zero_le _)).step_one_iff.mp h₄
  rw [Documented, five_iff hfields, h₁.step_one_iff, h₂.step_one_iff, h₅.step_one_iff, HasZeroStep,
    hfields]
  constructor
  · rintro ⟨hzero₁, hzero₂, -, -, hzero₅⟩ hmem
    simp only [List.mem_cons, List.not_mem_nil, or_false] at hmem
    rcases hmem with h | h | h | h | h
    · exact hzero₁ h.symm
    · exact hzero₂ h.symm
    · exact hzero₃ h.symm
    · exact hzero₄ h.symm
    · exact hzero₅ h.symm
  · intro hmem
    refine ⟨?_, ?_, h₃, h₄, ?_⟩ <;>
    · rintro rfl
      exact hmem (by simp)

theorem almostDocumented_of_isValid (h : isValidCronString s = true) : AlmostDocumented s := by
  obtain ⟨f₁, f₂, f₃, f₄, f₅, hfields, h₁, h₂, h₃, h₄, h₅⟩ := (isValidCronString_iff s).mp h
  exact ⟨f₁, f₂, f₃, f₄, f₅, hfields, h₁, h₂, h₃, h₄, h₅.mono (by decide) (Nat.le_refl _)⟩

theorem Documented.almost (h : Documented s) : AlmostDocumented s := by
  obtain ⟨f₁, f₂, f₃, f₄, f₅, hfields, h₁, h₂, h₃, h₄, h₅⟩ := h
  exact ⟨f₁, f₂, f₃, f₄, f₅, hfields, h₁.mono (Nat.le_refl _) (Nat.zero_le _),
    h₂.mono (Nat.le_refl _) (Nat.zero_le _), h₃, h₄, h₅.mono (Nat.le_refl _) (Nat.zero_le _)⟩

/-- No field of a documented expression is empty. -/
theorem Documented.neverEmpty (h : Documented s) : NeverEmpty s := by
  obtain ⟨f₁, f₂, f₃, f₄, f₅, hfields, h₁, h₂, h₃, h₄, h₅⟩ := h
  have hne {low high : Nat} {f : List Char} (hle : low ≤ high) (hf : Shaped low high 1 f) :
      matchingValues low high f ≠ [] := by
    rw [ne_eq, matchingValues_eq_nil_iff hle hf]
    exact (hf.mono (Nat.le_refl _) (Nat.zero_le _)).step_one_iff.mp hf
  exact ⟨f₁, f₂, f₃, f₄, f₅, hfields, hne (by decide) h₁, hne (by decide) h₂, hne (by decide) h₃,
    hne (by decide) h₄, hne (by decide) h₅⟩

end Agreement

/-- **Agreement.** The validator accepts what is documented, and no field of what it
accepts is empty, but for strings that are as documented up to zero steps: there it
does so only if the string has both a zero step and a day of the week 7, or
neither. -/
theorem isValid_iff_documented_iff (s : String) :
    ((isValidCronString s = true ↔ Documented s) ∧
      (isValidCronString s = true → NeverEmpty s)) ↔
      (AlmostDocumented s → (HasZeroStep s ↔ EndsInSeven s)) := by
  constructor
  · rintro ⟨hiff, -⟩ halmost
    rw [halmost.isValid_iff, halmost.documented_iff, not_iff_not] at hiff
    exact hiff.symm
  · intro h
    have hiff : isValidCronString s = true ↔ Documented s := by
      by_cases halmost : AlmostDocumented s
      · rw [halmost.isValid_iff, halmost.documented_iff, h halmost]
      · -- what is not even almost documented is rejected
        exact iff_of_false (fun hvalid => halmost (almostDocumented_of_isValid hvalid))
          fun hdocumented => halmost hdocumented.almost
    exact ⟨hiff, fun hvalid => (hiff.mp hvalid).neverEmpty⟩

/-- A zero step is accepted, and a day of the week 7 is not. -/
theorem cron_zero_and_seven :
    isValidCronString "*/0 * * * *" = true ∧ ¬ Documented "*/0 * * * *" ∧
      matchingValues 0 59 ['*', '/', '0'] = [] ∧
      isValidCronString "0 0 * * 7" = false ∧ Documented "0 0 * * 7" := by
  have hzero : cronFields "*/0 * * * *" = [['*', '/', '0'], ['*'], ['*'], ['*'], ['*']] := by
    decide
  have hseven : cronFields "0 0 * * 7" = [['0'], ['0'], ['*'], ['*'], ['7']] := by decide
  have hempty : matchingValues 0 59 ['*', '/', '0'] = [] := by decide
  refine ⟨by decide, fun h => ?_, hempty, by decide, (five_iff hseven).mpr ?_⟩
  · exact ((five_iff hzero).mp h.neverEmpty).1 hempty
  · exact ⟨.inr (.inl ⟨0, by decide, by decide, rfl⟩), .inr (.inl ⟨0, by decide, by decide, rfl⟩),
      .inl rfl, .inl rfl, .inr (.inl ⟨7, by decide, by decide, rfl⟩)⟩

end SchedulingService.Common

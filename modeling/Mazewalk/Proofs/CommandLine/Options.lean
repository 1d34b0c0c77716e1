import Mazewalk.CommandLine.Options
import Mazewalk.Proofs.CommandLine.Request

/-!
# Options are read as documented

The arguments are cut into options and values from left to right, so the same text could be an
option in one place and a value in another.  But no value that stands in an argument of its own
looks like an option; so the options that are found are those that the arguments give
(`mem_split_iff`), and what is read is what is given (`documented_read?`).
-/

namespace Mazewalk.CommandLine

/-! ### One argument -/

theorem attached?_cases (rest : List Char) :
    rest = [] ∧ attached? rest = none ∨
      ∃ value, attached? rest = some value ∧ (rest = '=' :: value.toList ∨
        rest = value.toList ∧ value ≠ "" ∧ value.toList.head? ≠ some '=') := by
  unfold attached?
  split
  · exact Or.inl ⟨rfl, rfl⟩
  · exact Or.inr ⟨_, rfl, Or.inl (by rw [String.toList_ofList])⟩
  · rename_i hnil heq
    refine Or.inr ⟨_, rfl, Or.inr ⟨by rw [String.toList_ofList], ?_, ?_⟩⟩
    · rwa [Ne, ← String.toList_eq_nil_iff, String.toList_ofList]
    · rw [String.toList_ofList]
      intro h
      obtain ⟨value, hv⟩ := List.head?_eq_some_iff.1 h
      exact heq value hv

theorem attached?_of_head? {value : String} (hv : value ≠ "") (he : value.toList.head? ≠ some '=') :
    attached? value.toList = some value := by
  unfold attached?
  split
  · rename_i h
    exact absurd (String.toList_eq_nil_iff.1 h) hv
  · rename_i h
    exact absurd (by rw [h]; rfl) he
  · rw [String.ofList_toList]

theorem option?_of_spells {flag : Flag} {text : String} {value? : Option String}
    (h : Spells flag.name flag.letter? text value?) : option? text = some (flag, value?) := by
  cases h with
  | name => cases flag <;> rfl
  | nameWith value => cases flag <;> simp [option?, attached?, Flag.name, Flag.all]
  | letter h => cases flag <;> cases h <;> rfl
  | letterWith h value =>
    cases flag <;> cases h <;> simp [option?, attached?, Flag.all, Flag.letter?]
  | letterBefore h value hv he =>
    cases flag <;> cases h <;> simp [option?, attached?_of_head? hv he, Flag.all, Flag.letter?]

/-- What follows the name in an argument with a long name is empty or begins with the sign. -/
theorem dropWhile_ne_cases (long : List Char) :
    long.dropWhile (· ≠ '=') = [] ∨ ∃ value, long.dropWhile (· ≠ '=') = '=' :: value := by
  cases h : long.dropWhile (· ≠ '=') with
  | nil => exact Or.inl rfl
  | cons c value =>
    have hc := List.head_dropWhile_not (fun c : Char => decide (c ≠ '=')) (l := long)
      (by rw [h]; exact List.cons_ne_nil c value)
    simp only [h, List.head_cons, decide_eq_false_iff_not, Decidable.not_not] at hc
    exact Or.inr ⟨value, by rw [hc]⟩

theorem spells_of_option? {flag : Flag} {text : String} {value? : Option String}
    (h : option? text = some (flag, value?)) : Spells flag.name flag.letter? text value? := by
  unfold option? at h
  split at h
  · rename_i long ht
    obtain ⟨flag', hf, he⟩ := Option.map_eq_some_iff.1 h
    obtain ⟨rfl, rfl⟩ := Prod.mk.inj he
    have hn : flag'.name = String.ofList (long.takeWhile (· ≠ '=')) :=
      eq_of_beq (List.find?_some (p := fun flag : Flag => flag.name == _) hf)
    have hlong : long.takeWhile (· ≠ '=') ++ long.dropWhile (· ≠ '=') = long :=
      List.takeWhile_append_dropWhile
    obtain hd | ⟨value, hd⟩ := dropWhile_ne_cases long
    · have htext : text = "--" ++ flag'.name := by
        rw [hd, List.append_nil] at hlong
        rw [← String.toList_inj, ht, hn, hlong]
        simp
      rw [hd, htext]
      exact .name
    · have htext : text = "--" ++ flag'.name ++ "=" ++ String.ofList value := by
        rw [hd] at hlong
        rw [← String.toList_inj, ht, ← hlong]
        simp [hn]
      rw [hd, htext]
      exact .nameWith _
  · rename_i letter rest hl ht
    obtain ⟨flag', hf, he⟩ := Option.map_eq_some_iff.1 h
    obtain ⟨rfl, rfl⟩ := Prod.mk.inj he
    have hn : flag'.letter? = some letter :=
      eq_of_beq (List.find?_some (p := fun flag : Flag => flag.letter? == _) hf)
    obtain ⟨rfl, ha⟩ | ⟨value, ha, rfl | ⟨rfl, hv, he⟩⟩ := attached?_cases rest
    · rw [ha, ← String.ofList_toList (s := text), ht]
      exact .letter hn
    · rw [ha, ← String.ofList_toList (s := text), ht]
      exact .letterWith hn value
    · rw [ha, ← String.ofList_toList (s := text), ht]
      exact .letterBefore hn value hv he
  · cases h

theorem option?_eq_some_iff {flag : Flag} {text : String} {value? : Option String} :
    option? text = some (flag, value?) ↔ Spells flag.name flag.letter? text value? :=
  ⟨spells_of_option?, option?_of_spells⟩

/-! ### All arguments -/

theorem gives_cons {text : String} {rest : List String} {name : String} {letter? : Option Char}
    {value : String} :
    Gives (text :: rest) name letter? value ↔
      Spells name letter? text (some value) ∨
        Spells name letter? text none ∧ rest.head? = some value ∨
          Gives rest name letter? value := by
  have hhead : [value] <+: rest ↔ rest.head? = some value := by
    cases rest with
    | nil => simp
    | cons next rest => simp [List.cons_prefix_cons, @eq_comm _ value]
  have hinfix : ∀ text', [text', value] <:+: text :: rest ↔
      text' = text ∧ rest.head? = some value ∨ [text', value] <:+: rest := by
    intro text'
    rw [List.infix_cons_iff, List.cons_prefix_cons, hhead]
  simp only [Gives, hinfix, List.mem_cons]
  constructor
  · rintro (⟨text', rfl | hm, hs⟩ | ⟨text', hs, ⟨rfl, hh⟩ | hi⟩)
    · exact Or.inl hs
    · exact Or.inr (Or.inr (Or.inl ⟨text', hm, hs⟩))
    · exact Or.inr (Or.inl ⟨hs, hh⟩)
    · exact Or.inr (Or.inr (Or.inr ⟨text', hs, hi⟩))
  · rintro (hs | ⟨hs, hh⟩ | ⟨text', hm, hs⟩ | ⟨text', hs, hi⟩)
    · exact Or.inl ⟨text, Or.inl rfl, hs⟩
    · exact Or.inr ⟨text, hs, Or.inl ⟨rfl, hh⟩⟩
    · exact Or.inl ⟨text', Or.inr hm, hs⟩
    · exact Or.inr ⟨text', hs, Or.inr hi⟩

/-- What does not look like an option is none. -/
theorem option?_eq_none {text : String} (h : ¬ looksLikeOption text = true) :
    option? text = none := by
  unfold looksLikeOption at h
  unfold option?
  split
  · simp_all
  · simp_all
  · rfl

/-- **The options that are found are those that are given,** with their values. -/
theorem mem_split_iff {texts : List String} {given : Given} (h : split texts = some given)
    {flag : Flag} (hv : flag.takesValue = true) {value : String} :
    (flag, value) ∈ given ↔ Gives texts flag.name flag.letter? value := by
  fun_induction split texts generalizing given with
  | case1 =>
    cases h
    simp [Gives]
  | case2 text rest hlast =>
    obtain ⟨rfl, rfl⟩ := hlast
    cases h
    rw [gives_cons, ← option?_eq_some_iff, ← option?_eq_some_iff]
    simp [Gives, option?, Flag.all, Flag.name]
  | case4 text flag' value' rest ho _ _ ih =>
    obtain ⟨tail, ht, rfl⟩ := Option.map_eq_some_iff.1 h
    rw [gives_cons, ← option?_eq_some_iff, ← option?_eq_some_iff, ho, List.mem_cons, ih ht]
    simp [eq_comm]
  | case8 text flag' ho _ value' rest hl _ ih =>
    obtain ⟨tail, ht, rfl⟩ := Option.map_eq_some_iff.1 h
    have hn := option?_eq_none hl
    rw [gives_cons, gives_cons]
    simp only [← option?_eq_some_iff, ho, hn, List.mem_cons, ih ht]
    simp [eq_comm]
  | case9 text flag' rest ho hf _ ih =>
    obtain ⟨tail, ht, rfl⟩ := Option.map_eq_some_iff.1 h
    have hne : flag ≠ flag' := by
      rintro rfl
      exact hf hv
    rw [gives_cons, ← option?_eq_some_iff, ← option?_eq_some_iff, ho, List.mem_cons, ih ht]
    simp [hne, Ne.symm hne]
  | case3 | case5 | case6 | case7 => cases h

theorem spells_headless_iff {text : String} :
    Spells "headless" none text none ↔ text = "--headless" := by
  constructor
  · intro h
    cases h with
    | name => rfl
    | letter h => cases h
  · rintro rfl
    exact .name

theorem option?_eq_headless_iff {text : String} :
    option? text = some (.headless, none) ↔ text = "--headless" :=
  option?_eq_some_iff.trans spells_headless_iff

theorem ne_headless {text : String} {flag : Flag} {value? : Option String}
    (ho : option? text = some (flag, value?)) (h : flag ≠ .headless) : "--headless" ≠ text := by
  rintro rfl
  rw [option?_eq_headless_iff.2 rfl] at ho
  exact h (Prod.mk.inj (Option.some.inj ho)).1.symm

/-- The option without a value is found where it is given. -/
theorem mem_headless_iff {texts : List String} {given : Given} (h : split texts = some given) :
    Flag.headless ∈ given.map Prod.fst ↔ "--headless" ∈ texts := by
  fun_induction split texts generalizing given with
  | case1 =>
    cases h
    simp
  | case2 text rest hlast =>
    obtain ⟨rfl, rfl⟩ := hlast
    cases h
    simp
  | case4 text flag value rest ho hf _ ih =>
    obtain ⟨tail, ht, rfl⟩ := Option.map_eq_some_iff.1 h
    have hflag : flag ≠ .headless := by
      rintro rfl
      cases hf
    rw [List.map_cons, List.mem_cons, List.mem_cons, ih ht]
    simp [hflag.symm, ne_headless ho hflag]
  | case8 text flag ho hf value rest hl _ ih =>
    obtain ⟨tail, ht, rfl⟩ := Option.map_eq_some_iff.1 h
    have hflag : flag ≠ .headless := by
      rintro rfl
      cases hf
    have hvalue : "--headless" ≠ value := by
      rintro rfl
      exact hl rfl
    rw [List.map_cons, List.mem_cons, List.mem_cons, List.mem_cons, ih ht]
    simp [hflag.symm, ne_headless ho hflag, hvalue]
  | case9 text flag rest ho hf _ ih =>
    obtain ⟨tail, ht, rfl⟩ := Option.map_eq_some_iff.1 h
    obtain rfl : flag = .headless := by
      cases flag <;> first | rfl | exact absurd rfl hf
    rw [List.map_cons, List.mem_cons, List.mem_cons, ih ht, option?_eq_headless_iff.1 ho]
    simp
  | case3 | case5 | case6 | case7 => cases h

/-! ### Values -/

theorem readTick?_eq_some_iff {text : String} {tickMs : UInt64} :
    readTick? text = some tickMs ↔ Text.IsNumeral text.toList tickMs.toNat := by
  rw [readTick?, Text.numeralBelow?, ← Program.numeral?_eq_some_iff, Option.map_eq_some_iff]
  constructor
  · rintro ⟨n, hn, rfl⟩
    obtain ⟨hn, hlt⟩ := Option.filter_eq_some_iff.1 hn
    rwa [UInt64.toNat_ofNat_of_lt' (of_decide_eq_true hlt)]
  · intro h
    refine ⟨tickMs.toNat, Option.filter_eq_some_iff.2 ⟨h, ?_⟩, UInt64.ofNat_toNat⟩
    exact decide_eq_true tickMs.toNat_lt

theorem readLevel?_eq_some_iff {text : String} {level : LevelId} :
    readLevel? text = some level ↔ IsLevelId text level.toNat := by
  unfold readLevel? IsLevelId
  rw [← Program.numeral?_eq_some_iff]
  split
  · rename_i digits ht
    have hn : Text.numeral? ('-' :: digits) = none := rfl
    have hzeros : (digits.isEmpty || !digits.all (· == '0')) = false ↔
        ∃ k, digits = List.replicate (k + 1) '0' := by
      rw [Bool.or_eq_false_iff, Bool.not_eq_false', List.all_eq_true]
      constructor
      · rintro ⟨hne, hall⟩
        obtain ⟨d, rest, rfl⟩ := List.exists_cons_of_ne_nil (List.isEmpty_eq_false_iff.1 hne)
        exact ⟨rest.length, List.eq_replicate_iff.2 ⟨rfl, fun c hc => eq_of_beq (hall c hc)⟩⟩
      · rintro ⟨k, rfl⟩
        exact ⟨rfl, fun c hc => beq_iff_eq.2 (List.eq_of_mem_replicate hc)⟩
    rw [ht, hn]
    simp only [reduceCtorEq, false_or, List.cons.injEq, true_and, ← hzeros]
    cases digits.isEmpty || !digits.all (· == '0') with
    | true => simp
    | false =>
      rw [if_neg Bool.false_ne_true, Option.some.injEq, eq_comm]
      simp [← UInt32.toNat_inj]
  · rename_i chars hne
    rw [Text.numeralBelow?, Option.map_eq_some_iff]
    constructor
    · rintro ⟨n, hn, rfl⟩
      obtain ⟨hn, hlt⟩ := Option.filter_eq_some_iff.1 hn
      rw [UInt32.toNat_ofNat_of_lt' (of_decide_eq_true hlt)]
      exact Or.inl hn
    · rintro (h | ⟨-, k, ht⟩)
      · exact ⟨level.toNat, Option.filter_eq_some_iff.2 ⟨h, decide_eq_true level.toNat_lt⟩,
          UInt32.ofNat_toNat⟩
      · exact absurd ht (hne _)

/-! ### Reading -/

/-- If no option is given twice, its value is the one that is found first. -/
theorem lookup_eq_some_iff {given : Given} (hn : (given.map Prod.fst).Nodup) {flag : Flag}
    {value : String} : given.lookup flag = some value ↔ (flag, value) ∈ given := by
  induction given with
  | nil => simp
  | cons entry rest ih =>
    obtain ⟨flag', value'⟩ := entry
    obtain ⟨hnot, hn⟩ := List.nodup_cons.1 hn
    by_cases hf : flag = flag'
    · subst hf
      have hrest : (flag, value) ∉ rest := fun hm => hnot (List.mem_map.2 ⟨_, hm, rfl⟩)
      simp [hrest, eq_comm]
    · rw [List.lookup_cons, beq_eq_false_iff_ne.2 hf, List.mem_cons]
      simp [hf, ih hn]

theorem isSome_lookup_iff {given : Given} {flag : Flag} :
    (given.lookup flag).isSome = true ↔ flag ∈ given.map Prod.fst := by
  induction given with
  | nil => simp
  | cons entry rest ih =>
    obtain ⟨flag', value⟩ := entry
    by_cases hf : flag = flag'
    · simp [hf]
    · rw [List.lookup_cons, beq_eq_false_iff_ne.2 hf, List.map_cons, List.mem_cons]
      exact ih.trans (or_iff_right hf).symm

theorem level_of_given {given : Given} {level : LevelId}
    (h : ((given.lookup .level).map readLevel?).getD (some 1) = some level) :
    (∀ text, given.lookup .level = some text → IsLevelId text level.toNat) ∧
      (given.lookup .level = none → level = 1) := by
  constructor
  · intro text ht
    rw [ht] at h
    exact readLevel?_eq_some_iff.1 h
  · intro hn
    rw [hn] at h
    exact (Option.some.inj h).symm

theorem tickMs_of_given {given : Given} {tickMs? : Option UInt64}
    (h : ((given.lookup .tickMs).map fun text => (readTick? text).map some).getD (some none) =
      some tickMs?) (tickMs : UInt64) :
    tickMs? = some tickMs ↔
      ∃ text, given.lookup .tickMs = some text ∧ Text.IsNumeral text.toList tickMs.toNat := by
  simp only [← readTick?_eq_some_iff]
  cases hl : given.lookup .tickMs with
  | none =>
    rw [hl] at h
    cases h
    simp
  | some text =>
    rw [hl] at h
    obtain ⟨n, hn, rfl⟩ := Option.map_eq_some_iff.1 h
    simp [hn]

namespace Arguments

/-- **The options are read as documented.** -/
theorem documented_read? : Documented read? := by
  intro texts arguments h
  obtain ⟨given, hs, h⟩ := Option.bind_eq_some_iff.1 h
  split at h
  · rename_i hfine
    have hn : (given.map Prod.fst).Nodup := by
      simp only [areFine, Bool.and_eq_true, decide_eq_true_eq] at hfine
      exact hfine.1.1
    have hl : ∀ flag value, flag.takesValue = true →
        (given.lookup flag = some value ↔ Gives texts flag.name flag.letter? value) :=
      fun flag value hv => (lookup_eq_some_iff hn).trans (mem_split_iff hs hv)
    obtain ⟨level, hlevel, h⟩ := Option.bind_eq_some_iff.1 h
    obtain ⟨tickMs?, htick, h⟩ := Option.bind_eq_some_iff.1 h
    obtain ⟨hgiven, hnone⟩ := level_of_given hlevel
    cases h
    exact
      { level := fun text ht => hgiven text ((hl .level text rfl).2 ht)
        noLevel := fun hno => hnone (Option.eq_none_iff_forall_ne_some.2 fun text ht =>
          hno text ((hl .level text rfl).1 ht))
        levelFile := fun path => hl .levelFile path rfl
        program := fun path => hl .program path rfl
        code := fun text => hl .code text rfl
        headless := isSome_lookup_iff.trans (mem_headless_iff hs)
        config := fun path => hl .config path rfl
        tickMs := fun tickMs => (tickMs_of_given htick tickMs).trans
          (exists_congr fun text => and_congr_left fun _ => hl .tickMs text rfl)
        logFile := fun path => hl .logFile path rfl }
  · cases h

end Arguments

end Mazewalk.CommandLine

import Mathlib.Data.List.Basic
import ScopedCss.Composition
import ScopedCss.Proofs.Blanks

/-!
# The grammar of compositions

What may stand behind a composed name, as data: nothing, or two gaps with `from` between them and a
source behind them.  The parts carry what makes them parts of a value, so a text belongs to the
grammar if it is the text of such data.  Each reader is the inverse of a text: `skipGap?_eq_some_iff`,
`specifier?_eq_some_iff` and `origin?_eq_some_iff`.  Since the gaps and the quotes end where they end,
a text has at most one decomposition (`Suffix.text_injective`).
-/

namespace ScopedCss.Reference

/-! ## Parts of a value -/

/-- A run of at least one space. -/
@[ext]
structure Gap where
  text : Text
  ne_nil : text ≠ []
  isSpace : ∀ c ∈ text, Text.isSpace c = true

/-- A specifier in quotes that it does not have itself. -/
@[ext]
structure Quoted where
  quote : Char
  specifier : Text
  isQuote : Scan.isQuote quote = true
  ne_nil : specifier ≠ []
  not_mem : quote ∉ specifier

def Quoted.text (quoted : Quoted) : Text :=
  quoted.quote :: (quoted.specifier ++ [quoted.quote])

/-- Where a name is composed from. -/
inductive Source where
  | global
  | dependency (quoted : Quoted)

namespace Source

def text : Source → Text
  | .global => "global".toList
  | .dependency quoted => quoted.text

def origin : Source → Origin
  | .global => .global
  | .dependency quoted => .dependency quoted.specifier

end Source

/-- What stands behind a composed name. -/
inductive Suffix where
  | own
  | foreign (first second : Gap) (source : Source)

namespace Suffix

def text : Suffix → Text
  | .own => []
  | .foreign first second source => first.text ++ ("from".toList ++ (second.text ++ source.text))

def origin : Suffix → Origin
  | .own => .own
  | .foreign _ _ source => source.origin

end Suffix

/-! ## Texts that begin without a space -/

/-- The text does not begin with a space. -/
def Bare (text : Text) : Prop :=
  ∀ c ∈ text.head?, Text.isSpace c = false

theorem bare_from (rest : Text) : Bare ("from".toList ++ rest) := by
  intro c hc
  obtain rfl : 'f' = c := Option.some.inj hc
  decide

theorem Source.bare_text (source : Source) : Bare source.text := by
  intro c hc
  cases source with
  | global =>
    obtain rfl : 'g' = c := Option.some.inj hc
    decide
  | dependency quoted =>
    obtain rfl : quoted.quote = c := Option.some.inj hc
    have hquote := quoted.isQuote
    simp only [Scan.isQuote, Bool.or_eq_true, beq_iff_eq] at hquote
    rcases hquote with hquote | hquote <;> rw [hquote] <;> decide

/-- A gap in front of a text without a space at its start ends where it ends. -/
theorem Gap.append_inj {first second : Gap} {rest other : Text} (hrest : Bare rest)
    (hother : Bare other) (h : first.text ++ rest = second.text ++ other) :
    first = second ∧ rest = other := by
  have hgap := congrArg Text.leadingSpace h
  rw [Text.leadingSpace_append first.isSpace hrest, Text.leadingSpace_append second.isSpace hother]
    at hgap
  rw [hgap] at h
  exact ⟨Gap.ext hgap, List.append_cancel_left h⟩

/-! ## The readers -/

theorem skipGap?_eq_some_iff {text rest : Text} :
    skipGap? text = some rest ↔ ∃ gap : Gap, text = gap.text ++ rest ∧ Bare rest := by
  constructor
  · intro h
    rw [skipGap?] at h
    split at h
    · cases h
    · next hempty =>
      obtain rfl := Option.some.inj h
      have hspace : ∀ c ∈ text.leadingSpace, Text.isSpace c = true := fun _ =>
        List.mem_takeWhile_imp
      refine ⟨⟨text.leadingSpace, by simpa using hempty, hspace⟩, ?_, Text.head?_skipSpace⟩
      exact (Text.leadingSpace_append_skipSpace text).symm
  · rintro ⟨gap, rfl, hrest⟩
    rw [skipGap?, Text.leadingSpace_append gap.isSpace hrest,
      Text.skipSpace_append gap.isSpace hrest, if_neg (by simpa using gap.ne_nil)]

theorem specifier?_eq_some_iff {text specifier : Text} :
    specifier? text = some specifier ↔
      ∃ quoted : Quoted, text = quoted.text ∧ quoted.specifier = specifier := by
  constructor
  · intro h
    cases text with
    | nil => cases h
    | cons quote body =>
      rw [specifier?] at h
      split at h
      · next hquote =>
        split at h
        · next found hsplit =>
          split at h
          · cases h
          · next hempty =>
            obtain rfl := Option.some.inj h
            obtain ⟨hbody, hmem⟩ := Text.append_of_splitFirst?_eq_some hsplit
            exact ⟨⟨quote, found, hquote, by simpa using hempty, hmem⟩, by rw [hbody]; rfl, rfl⟩
        · cases h
      · cases h
  · rintro ⟨quoted, rfl, rfl⟩
    rw [Quoted.text, specifier?, if_pos quoted.isQuote, Text.splitFirst?_append quoted.not_mem]
    exact if_neg (by simpa using quoted.ne_nil)

/-- The source that stands behind `from`. -/
theorem source_eq_some_iff {text : Text} {origin : Origin} :
    (if text == "global".toList then some Origin.global
      else do return .dependency (← specifier? text)) = some origin ↔
      ∃ source : Source, text = source.text ∧ source.origin = origin := by
  constructor
  · intro h
    split at h
    · next hglobal => exact ⟨.global, beq_iff_eq.1 hglobal, Option.some.inj h⟩
    · obtain ⟨specifier, hspecifier, horigin⟩ := Option.bind_eq_some_iff.1 h
      obtain ⟨quoted, htext, rfl⟩ := specifier?_eq_some_iff.1 hspecifier
      exact ⟨.dependency quoted, htext, Option.some.inj horigin⟩
  · rintro ⟨source, rfl, rfl⟩
    cases source with
    | global => rfl
    | dependency quoted =>
      -- A quote is not the first letter of `global`.
      have hglobal : quoted.text ≠ "global".toList := by
        intro heq
        obtain ⟨hquote, -⟩ := List.cons.inj (heq : quoted.quote :: _ = 'g' :: _)
        exact absurd quoted.isQuote (by rw [hquote]; decide)
      have hne : (quoted.text == "global".toList) = false := beq_eq_false_iff_ne.2 hglobal
      have hspecifier : specifier? quoted.text = some quoted.specifier :=
        specifier?_eq_some_iff.2 ⟨quoted, rfl, rfl⟩
      show (if quoted.text == "global".toList then some Origin.global
        else do return .dependency (← specifier? quoted.text)) = some (.dependency quoted.specifier)
      rw [hne, hspecifier]
      rfl

theorem origin?_eq_some_iff {tail : Text} {origin : Origin} :
    origin? tail = some origin ↔
      ∃ suffix : Suffix, tail = suffix.text ∧ suffix.origin = origin := by
  constructor
  · intro h
    rw [origin?] at h
    split at h
    · next hempty => exact ⟨.own, List.isEmpty_iff.1 hempty, Option.some.inj h⟩
    · obtain ⟨word, hword, hbehind⟩ := Option.bind_eq_some_iff.1 h
      obtain ⟨after, hafter, hbehind⟩ := Option.bind_eq_some_iff.1 hbehind
      obtain ⟨text, htext, hbehind⟩ := Option.bind_eq_some_iff.1 hbehind
      obtain ⟨first, hfirst, -⟩ := skipGap?_eq_some_iff.1 hword
      obtain ⟨second, hsecond, -⟩ := skipGap?_eq_some_iff.1 htext
      have hfrom := List.append_eq_of_isPrefixOf?_eq_some hafter
      obtain ⟨source, hsource, horigin⟩ := source_eq_some_iff.1 hbehind
      refine ⟨.foreign first second source, ?_, horigin⟩
      rw [hfirst, ← hfrom, hsecond, hsource, Suffix.text]
  · rintro ⟨suffix, rfl, rfl⟩
    cases suffix with
    | own => rfl
    | foreign first second source =>
      have hword := skipGap?_eq_some_iff.2 ⟨first, rfl, bare_from (second.text ++ source.text)⟩
      have hfrom : "from".toList.isPrefixOf? ("from".toList ++ (second.text ++ source.text)) =
          some (second.text ++ source.text) :=
        List.isPrefixOf?_eq_some_iff_append_eq.2 rfl
      have hsource := skipGap?_eq_some_iff.2 ⟨second, rfl, source.bare_text⟩
      have hne : (Suffix.foreign first second source).text.isEmpty = false := by
        simp [Suffix.text, first.ne_nil]
      have horigin := source_eq_some_iff.2 ⟨source, rfl, rfl⟩
      rw [origin?, hne, Suffix.text]
      simp only [Bool.false_eq_true, if_false, hword, hfrom, hsource, Option.bind_eq_bind,
        Option.bind_some]
      exact horigin

/-! ## One decomposition -/

theorem Quoted.text_injective : Function.Injective Quoted.text := by
  intro first second h
  obtain ⟨hquote, hrest⟩ := List.cons.inj h
  rw [hquote] at hrest
  exact Quoted.ext hquote (List.append_cancel_right hrest)

theorem Source.text_injective : Function.Injective Source.text := by
  -- Equal texts are read as the same origin, so the two sources are of one kind.
  intro first second h
  have horigin := (source_eq_some_iff.2 ⟨first, rfl, rfl⟩).symm.trans
    (source_eq_some_iff.2 ⟨second, h, rfl⟩)
  cases first with
  | global =>
    cases second with
    | global => rfl
    | dependency quoted => cases horigin
  | dependency quoted =>
    cases second with
    | global => cases horigin
    | dependency other => exact congrArg _ (Quoted.text_injective h)

theorem Suffix.text_injective : Function.Injective Suffix.text := by
  intro first second h
  cases first with
  | own =>
    cases second with
    | own => rfl
    | foreign one two source => simp [Suffix.text, one.ne_nil] at h
  | foreign one two source =>
    cases second with
    | own => simp [Suffix.text, one.ne_nil] at h
    | foreign other another target =>
      obtain ⟨rfl, hfrom⟩ := Gap.append_inj (bare_from _) (bare_from _) h
      obtain ⟨rfl, hsource⟩ := Gap.append_inj source.bare_text target.bare_text
        (List.append_cancel_left hfrom)
      rw [Source.text_injective hsource]

/-! ## Values -/

theorem parse?_eq_some_iff {value : Text} {reference : Reference} :
    parse? value = some reference ↔
      ∃ suffix : Suffix, Ident.read? value.trim = some (reference.name, suffix.text) ∧
        suffix.origin = reference.origin := by
  constructor
  · intro h
    obtain ⟨⟨name, tail⟩, hread, h⟩ := Option.bind_eq_some_iff.1 h
    obtain ⟨origin, horigin, h⟩ := Option.bind_eq_some_iff.1 h
    obtain rfl : Reference.mk name origin = reference := Option.some.inj h
    obtain ⟨suffix, rfl, hsuffix⟩ := origin?_eq_some_iff.1 horigin
    exact ⟨suffix, hread, hsuffix⟩
  · rintro ⟨suffix, hread, hsuffix⟩
    have horigin := origin?_eq_some_iff.2 ⟨suffix, rfl, hsuffix⟩
    simp [parse?, hread, horigin]

/-- The values of the grammar, and only those, are read: a name with a suffix behind it is read as
the name and the origin that the suffix stands for, every other text is refused, and no text can be
taken apart in two ways. -/
theorem parse?_follows_grammar (value : Text) :
    (∀ reference, parse? value = some reference ↔
      ∃ suffix : Suffix, Ident.read? value.trim = some (reference.name, suffix.text) ∧
        suffix.origin = reference.origin) ∧
    (parse? value = none ↔
      ∀ (name : Text) (suffix : Suffix), Ident.read? value.trim ≠ some (name, suffix.text)) ∧
    ∀ (name other : Text) (suffix another : Suffix),
      Ident.read? value.trim = some (name, suffix.text) →
      Ident.read? value.trim = some (other, another.text) → name = other ∧ suffix = another := by
  refine ⟨fun reference => parse?_eq_some_iff, ⟨?_, ?_⟩, ?_⟩
  · intro hnone name suffix hread
    have hsome := (@parse?_eq_some_iff value ⟨name, suffix.origin⟩).2 ⟨suffix, hread, rfl⟩
    rw [hnone] at hsome
    cases hsome
  · intro hall
    rw [Option.eq_none_iff_forall_ne_some]
    intro reference hsome
    obtain ⟨suffix, hread, -⟩ := parse?_eq_some_iff.1 hsome
    exact hall reference.name suffix hread
  · intro name other suffix another hread hagain
    obtain ⟨hname, htext⟩ := Prod.mk.inj (Option.some.inj (hread.symm.trans hagain))
    exact ⟨hname, Suffix.text_injective htext⟩

end ScopedCss.Reference

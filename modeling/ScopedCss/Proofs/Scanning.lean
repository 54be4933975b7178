import ScopedCss.Proofs.Identifiers
import ScopedCss.Text.Scan

/-!
# What the search passes over

The search for a stop character looks at the text from left to right, and what it has passed does
not matter any more.  `Hidden` says how the units that hide their characters are written, and is used
wherever such a unit has to be looked into.  Two facts carry the rest.

* `exists_content_of_scan_eq_found`: what stands in front of a stop that was found is passed over in
  the same way in front of every other text, and inside every group.
* `Passes stops text`: the search for `stops` passes over the text whatever stands behind it.
  Identifiers pass, and so do bracket groups with a content that was found once.

The one place where the text behind matters is a `/` at the end, which must not become a `/*`.
-/

namespace ScopedCss.Scan

/-! ## The first unit -/

theorem lead_cons {c : Char} {rest : Text} (hescape : c ≠ '\\')
    (hcomment : c = '/' → rest.head? ≠ some '*') (hquote : isQuote c = false) :
    lead (c :: rest) = .plain c rest := by
  rw [lead]
  · rw [hquote]
    rfl
  · exact fun h => hescape h
  · rintro body rfl rfl
    exact hcomment rfl rfl

/-- A character that is a unit of its own whatever stands next to it. -/
def isBare (c : Char) : Bool :=
  !(c == '\\' || c == '/' || c == '*' || isQuote c)

theorem isBare_iff {c : Char} :
    isBare c = true ↔ c ≠ '\\' ∧ c ≠ '/' ∧ c ≠ '*' ∧ isQuote c = false := by
  simp [isBare, and_assoc]

theorem lead_of_isBare {c : Char} (h : isBare c = true) (rest : Text) :
    lead (c :: rest) = .plain c rest := by
  obtain ⟨hescape, hslash, -, hquote⟩ := isBare_iff.1 h
  exact lead_cons hescape (fun hc => absurd hc hslash) hquote

theorem lead_quote {c : Char} (h : isQuote c = true) (rest : Text) :
    lead (c :: rest) =
      match afterString? c rest with
      | some rest => .hidden rest
      | none => .unterminated := by
  have hescape : c ≠ '\\' := by
    rintro rfl
    exact absurd h (by decide)
  have hslash : c ≠ '/' := by
    rintro rfl
    exact absurd h (by decide)
  rw [lead]
  · exact if_pos h
  · exact hescape
  · exact fun body hc => absurd hc hslash

theorem lead_eq_plain {text rest : Text} {c : Char} (h : lead text = .plain c rest) :
    text = c :: rest ∧ c ≠ '\\' ∧ (c = '/' → rest.head? ≠ some '*') ∧ isQuote c = false := by
  obtain rfl := eq_cons_of_lead_eq_plain h
  refine ⟨rfl, ?_, ?_, ?_⟩
  · rintro rfl
    simp [lead] at h
  · rintro rfl hstar
    obtain ⟨body, rfl⟩ := List.head?_eq_some_iff.1 hstar
    rw [lead] at h
    split at h <;> simp at h
  · by_contra hquote
    rw [Bool.not_eq_false] at hquote
    rw [lead_quote hquote] at h
    split at h <;> simp at h

theorem afterString?_cons {quote c : Char} (h : c ≠ '\\') (rest : Text) :
    afterString? quote (c :: rest) =
      if c = quote then some rest else if c = '\n' then none else afterString? quote rest := by
  rw [afterString?]
  · exact fun hc => absurd hc h
  · exact fun _ _ hc => absurd hc h

/-- Where escapes are matched first, the last case is that of another character. -/
theorem ne_backslash_of_cases {c : Char} {rest : Text} (hlone : c = '\\' → rest = [] → False)
    (hescape : ∀ d tail, c = '\\' → rest = d :: tail → False) : c ≠ '\\' := by
  intro hc
  cases rest with
  | nil => exact hlone hc rfl
  | cons d tail => exact hescape d tail hc rfl

/-! ## Units that hide their characters -/

/-- The text from behind the opening quote of a string up to its closing one. -/
inductive Closes (quote : Char) : Text → Prop where
  | quote : Closes quote [quote]
  | char {c : Char} {rest : Text} :
    c ≠ quote → c ≠ '\\' → c ≠ '\n' → Closes quote rest → Closes quote (c :: rest)
  | escape {c : Char} {rest : Text} : Closes quote rest → Closes quote ('\\' :: c :: rest)

/-- The text begins with an escape, a string or a comment, and `rest` stands behind it. -/
inductive Hidden : Text → Text → Prop where
  | escape {c : Char} {rest : Text} : Hidden ('\\' :: c :: rest) rest
  | string {quote : Char} {body rest : Text} :
    isQuote quote = true → Closes quote body → Hidden (quote :: (body ++ rest)) rest
  /-- A comment ends with the first `*/` behind its opening. -/
  | comment {body rest : Text} :
    ¬['*', '/'] <:+: body → Hidden ('/' :: '*' :: (body ++ '*' :: '/' :: rest)) rest

theorem ne_backslash_of_isQuote {c : Char} (h : isQuote c = true) : c ≠ '\\' := by
  intro hc
  subst hc
  exact absurd h (by decide)

theorem afterString?_of_closes {quote : Char} {body : Text} (hquote : quote ≠ '\\')
    (h : Closes quote body) (rest : Text) : afterString? quote (body ++ rest) = some rest := by
  induction h with
  | quote => rw [List.singleton_append, afterString?_cons hquote, if_pos rfl]
  | char hne hescape hline _ ih =>
    rw [List.cons_append, afterString?_cons hescape, if_neg hne, if_neg hline, ih]
  | escape _ ih =>
    rw [List.cons_append, List.cons_append, afterString?]
    exact ih

theorem closes_of_afterString? {quote : Char} {text rest : Text}
    (h : afterString? quote text = some rest) : ∃ body, Closes quote body ∧ text = body ++ rest := by
  fun_induction afterString? quote text with
  | case1 => simp at h
  | case2 => simp at h
  | case3 c tail ih =>
    obtain ⟨body, hbody, rfl⟩ := ih h
    exact ⟨'\\' :: c :: body, .escape hbody, rfl⟩
  | case4 tail =>
    obtain rfl := Option.some.inj h
    exact ⟨[quote], .quote, rfl⟩
  | case5 => simp at h
  | case6 c tail hlone hescape hquote hline ih =>
    obtain ⟨body, hbody, rfl⟩ := ih h
    exact ⟨c :: body, .char hquote (ne_backslash_of_cases hlone hescape) hline hbody, rfl⟩

/-- A string ends with its quote. -/
theorem Closes.exists_concat {quote : Char} {body : Text} (h : Closes quote body) :
    ∃ inner, body = inner ++ [quote] := by
  induction h with
  | quote => exact ⟨[], rfl⟩
  | @char c rest _ _ _ _ ih =>
    obtain ⟨inner, rfl⟩ := ih
    exact ⟨c :: inner, rfl⟩
  | @escape c rest _ ih =>
    obtain ⟨inner, rfl⟩ := ih
    exact ⟨'\\' :: c :: inner, rfl⟩

theorem afterComment?_append {content : Text} (h : ¬['*', '/'] <:+: content) (rest : Text) :
    afterComment? (content ++ '*' :: '/' :: rest) = some rest := by
  induction content with
  | nil => rfl
  | cons c content ih =>
    have hinner : ¬['*', '/'] <:+: content := fun hinfix => h (List.infix_cons hinfix)
    rw [List.cons_append, afterComment?]
    · exact ih hinner
    · rintro after rfl hslash
      cases content with
      | nil => simp at hslash
      | cons d content =>
        obtain ⟨rfl, -⟩ := List.cons.inj hslash
        exact h ⟨[], content, rfl⟩

/-- A comment ends with its first `*/`. -/
theorem exists_comment_of_afterComment?_eq_some {text rest : Text}
    (h : afterComment? text = some rest) :
    ∃ body, text = body ++ '*' :: '/' :: rest ∧ ¬['*', '/'] <:+: body := by
  fun_induction afterComment? text with
  | case1 => simp at h
  | case2 tail =>
    obtain rfl := Option.some.inj h
    exact ⟨[], rfl, by simp⟩
  | case3 c tail hclose ih =>
    obtain ⟨body, rfl, hbody⟩ := ih h
    refine ⟨c :: body, rfl, fun hinfix => ?_⟩
    rcases List.infix_cons_iff.1 hinfix with hprefix | hinner
    · obtain ⟨hstar, ⟨after, rfl⟩⟩ := List.cons_prefix_cons.1 hprefix
      exact hclose _ hstar.symm rfl
    · exact hbody hinner

theorem Hidden.lead_eq {text rest : Text} (h : Hidden text rest) : lead text = .hidden rest := by
  cases h with
  | escape => rfl
  | string hquote hbody =>
    rw [lead_quote hquote, afterString?_of_closes (ne_backslash_of_isQuote hquote) hbody]
  | comment hbody =>
    rw [lead, afterComment?_append hbody]

theorem hidden_of_lead {text rest : Text} (h : lead text = .hidden rest) (hne : text ≠ ['\\']) :
    Hidden text rest := by
  unfold lead at h
  split at h
  · simp at h
  · next tail =>
    obtain rfl := Lead.hidden.inj h
    cases tail with
    | nil => exact absurd rfl hne
    | cons c tail => exact .escape
  · split at h
    · next hafter =>
      obtain rfl := Lead.hidden.inj h
      obtain ⟨body, rfl, hbody⟩ := exists_comment_of_afterComment?_eq_some hafter
      exact .comment hbody
    · simp at h
  · split at h
    · next hquote =>
      split at h
      · next hafter =>
        obtain rfl := Lead.hidden.inj h
        obtain ⟨body, hbody, rfl⟩ := closes_of_afterString? hafter
        exact .string hquote hbody
      · simp at h
    · simp at h

/-- A unit that hides its characters ends in the same place whatever stands behind it, unless it is
a backslash at the end of the text. -/
theorem exists_unit_of_lead_eq_hidden {text rest : Text} (h : lead text = .hidden rest)
    (hne : text ≠ ['\\']) :
    ∃ unit, text = unit ++ rest ∧ ∀ other, lead (unit ++ other) = .hidden other := by
  cases hidden_of_lead h hne with
  | escape => exact ⟨['\\', _], rfl, fun other => rfl⟩
  | @string quote body _ hquote hbody =>
    exact ⟨quote :: body, rfl, fun other => (Hidden.string hquote hbody).lead_eq⟩
  | @comment body _ hbody =>
    refine ⟨'/' :: '*' :: (body ++ ['*', '/']), by simp, fun other => ?_⟩
    have hlead : lead ('/' :: '*' :: (body ++ '*' :: '/' :: other)) = .hidden other :=
      (Hidden.comment hbody).lead_eq
    simpa using hlead

/-! ## What stands in front of a stop -/

theorem scan_of_lead_eq_hidden {stops : List Char} {groups : List Group} {text rest : Text}
    (h : lead text = .hidden rest) : scan stops groups text = scan stops groups rest := by
  rw [scan.eq_def stops groups text]
  split <;> simp_all

theorem scan_of_lead_eq_plain {stops : List Char} {groups : List Group} {text rest : Text}
    {c : Char} (h : lead text = .plain c rest) (hstop : groups = [] → c ∉ stops) :
    scan stops groups text =
      match Group.track groups c text with
      | some groups => scan stops groups rest
      | none => .unbalanced text := by
  have hpass : (groups.isEmpty && stops.contains c) = false := by
    by_contra htrue
    rw [Bool.not_eq_false, Bool.and_eq_true, List.isEmpty_iff, List.contains_iff_mem] at htrue
    exact hstop htrue.1 htrue.2
  rw [scan.eq_def stops groups text]
  split
  · simp_all
  · simp_all
  · simp_all
  · next hlead =>
    obtain ⟨rfl, rfl⟩ := Lead.plain.inj (h.symm.trans hlead)
    rw [hpass]
    rfl

theorem scan_of_mem_stops {stops : List Char} {text rest : Text} {c : Char}
    (h : lead text = .plain c rest) (hmem : c ∈ stops) : scan stops [] text = .found c rest := by
  rw [scan.eq_def]
  split
  · simp_all
  · simp_all
  · simp_all
  · next heq =>
    obtain ⟨rfl, rfl⟩ := Lead.plain.inj (h.symm.trans heq)
    simp [hmem]

theorem scan_of_lead_eq_unterminated {stops : List Char} {groups : List Group} {text : Text}
    (h : lead text = .unterminated) : scan stops groups text = .unbalanced text := by
  rw [scan.eq_def]
  split <;> simp_all

theorem scan_nil (stops : List Char) : scan stops [] [] = .absent := by
  rw [scan.eq_def]
  split <;> simp_all [lead]

theorem scan_nil_of_open (stops : List Char) (group : Group) (outer : List Group) :
    scan stops (group :: outer) [] = .unbalanced group.start := by
  rw [scan.eq_def]
  split <;> simp_all [lead]

theorem scan_nil_ne_found {stops : List Char} {groups : List Group} {after : Text} {stop : Char} :
    scan stops groups [] ≠ .found stop after := by
  cases groups with
  | nil => simp [scan_nil]
  | cons group outer => simp [scan_nil_of_open]

theorem track_append {groups next inner : List Group} {c : Char} {start : Text}
    (h : Group.track groups c start = some next)
    (hinner : inner.map Group.closer = groups.map Group.closer) (outer : List Group)
    (place : Text) :
    ∃ later, Group.track (inner ++ outer) c place = some (later ++ outer) ∧
      later.map Group.closer = next.map Group.closer := by
  unfold Group.track at h ⊢
  split_ifs at h ⊢ with hround hsquare hclose
  · obtain rfl := Option.some.inj h
    exact ⟨⟨')', place⟩ :: inner, rfl, by simp [hinner]⟩
  · obtain rfl := Option.some.inj h
    exact ⟨⟨']', place⟩ :: inner, rfl, by simp [hinner]⟩
  · cases groups with
    | nil => simp at h
    | cons group groups =>
      cases inner with
      | nil => simp at hinner
      | cons first inner =>
        simp only [List.map_cons, List.cons.injEq] at hinner
        simp only at h
        split_ifs at h with hcloser
        obtain rfl := Option.some.inj h
        refine ⟨inner, ?_, hinner.2⟩
        simp [hinner.1, hcloser]
  · obtain rfl := Option.some.inj h
    exact ⟨inner, rfl, hinner⟩

/-- What stands in front of a stop that was found is passed over in front of every other text, and
inside every group, unless a `/` at its end would become a `/*`. -/
theorem exists_content_of_scan_eq_found {stops : List Char} {groups : List Group}
    {text after : Text} {stop : Char} (h : scan stops groups text = .found stop after) :
    ∃ content, text = content ++ stop :: after ∧
      ∀ (sought : List Char) (inner outer : List Group) (rest : Text),
        inner.map Group.closer = groups.map Group.closer →
        (outer = [] → ∀ c ∈ sought, c ∈ stops) → rest.head? ≠ some '*' →
        scan sought (inner ++ outer) (content ++ rest) = scan sought outer rest := by
  fun_induction scan stops groups text with
  | case1 => simp at h
  | case2 => simp at h
  | case3 => simp at h
  | case4 groups text tail hlead ih =>
    have hne : text ≠ ['\\'] := by
      rintro rfl
      obtain rfl : tail = [] := (Lead.hidden.inj hlead).symm
      exact scan_nil_ne_found h
    obtain ⟨unit, rfl, hunit⟩ := exists_unit_of_lead_eq_hidden hlead hne
    obtain ⟨content, rfl, hcontent⟩ := ih h
    refine ⟨unit ++ content, by rw [List.append_assoc], ?_⟩
    intro sought inner outer rest hinner hsought hrest
    rw [List.append_assoc, scan_of_lead_eq_hidden (hunit _)]
    exact hcontent sought inner outer rest hinner hsought hrest
  | case5 groups text c tail hlead hstop =>
    obtain ⟨rfl, rfl⟩ := Outcome.found.inj h
    rw [Bool.and_eq_true, List.isEmpty_iff] at hstop
    refine ⟨[], eq_cons_of_lead_eq_plain hlead, ?_⟩
    intro sought inner outer rest hinner _ _
    obtain rfl : inner = [] := by simpa [hstop.1] using hinner
    rfl
  | case6 groups text c tail hlead hstop next htrack ih =>
    obtain ⟨rfl, hescape, hcomment, hquote⟩ := lead_eq_plain hlead
    obtain ⟨content, rfl, hcontent⟩ := ih h
    refine ⟨c :: content, rfl, ?_⟩
    intro sought inner outer rest hinner hsought hrest
    have hplain : lead (c :: (content ++ rest)) = .plain c (content ++ rest) := by
      refine lead_cons hescape (fun hc => ?_) hquote
      -- What follows the `/` is the same character as before, or the start of `rest`.
      cases content with
      | nil => exact hrest
      | cons d content => exact hcomment hc
    have hfree : inner ++ outer = [] → c ∉ sought := by
      intro hnil hc
      obtain ⟨rfl, rfl⟩ := List.append_eq_nil_iff.1 hnil
      obtain rfl : groups = [] := by simpa using hinner.symm
      exact hstop (by simpa using hsought rfl c hc)
    obtain ⟨later, hlater, hclosers⟩ :=
      track_append htrack hinner outer (c :: (content ++ rest))
    rw [List.cons_append, scan_of_lead_eq_plain hplain hfree, hlater]
    exact hcontent sought later outer rest hclosers hsought hrest
  | case7 => simp at h

/-- What stands in front of a stop that was found does not hide what comes in its place. -/
theorem unnested_append_of_found {stops : List Char} {content after rest : Text} {stop : Char}
    (h : unnested stops (content ++ stop :: after) = .found stop after)
    (hrest : rest.head? ≠ some '*') : unnested stops (content ++ rest) = unnested stops rest := by
  obtain ⟨front, heq, hfront⟩ := exists_content_of_scan_eq_found h
  obtain rfl := List.append_cancel_right heq
  exact hfront stops [] [] rest rfl (fun _ c hc => hc) hrest

/-! ## Texts that are passed over -/

/-- The search for `stops` passes over the text whatever stands behind it.  Inside a group there are
no stops, so there the search passes over it whatever it is for. -/
def Passes (stops : List Char) (text : Text) : Prop :=
  ∀ (sought : List Char) (groups : List Group) (rest : Text),
    (groups = [] → ∀ c ∈ sought, c ∈ stops) →
      scan sought groups (text ++ rest) = scan sought groups rest

theorem Passes.nil (stops : List Char) : Passes stops [] :=
  fun _ _ _ _ => rfl

theorem Passes.append {stops : List Char} {first second : Text} (hfirst : Passes stops first)
    (hsecond : Passes stops second) : Passes stops (first ++ second) := by
  intro sought groups rest hsought
  rw [List.append_assoc, hfirst sought groups _ hsought, hsecond sought groups rest hsought]

/-- A character that neither hides others nor opens or closes a group. -/
def isOrdinary (c : Char) : Bool :=
  !(c == '\\' || c == '/' || isQuote c || c == '(' || c == ')' || c == '[' || c == ']')

theorem isOrdinary_iff {c : Char} :
    isOrdinary c = true ↔
      c ≠ '\\' ∧ c ≠ '/' ∧ isQuote c = false ∧ c ≠ '(' ∧ c ≠ ')' ∧ c ≠ '[' ∧ c ≠ ']' := by
  simp [isOrdinary, and_assoc]

theorem passes_of_forall {stops : List Char} {text : Text}
    (h : ∀ c ∈ text, isOrdinary c = true ∧ c ∉ stops) : Passes stops text := by
  induction text with
  | nil => exact .nil stops
  | cons c text ih =>
    rw [List.forall_mem_cons] at h
    intro sought groups rest hsought
    obtain ⟨hescape, hslash, hquote, hround, hclose, hsquare, hbracket⟩ := isOrdinary_iff.1 h.1.1
    rw [List.cons_append, scan_of_lead_eq_plain
      (lead_cons hescape (fun hc => absurd hc hslash) hquote)
      (fun hnil hc => h.1.2 (hsought hnil c hc))]
    simp only [Group.track, hround, hclose, hsquare, hbracket, if_false, or_self]
    exact ih h.2 sought groups rest hsought

theorem ordinary_of_all {stops : List Char} {text : Text}
    (h : (text.all fun c => isOrdinary c && !stops.contains c) = true) :
    ∀ c ∈ text, isOrdinary c = true ∧ c ∉ stops := by
  simpa using h

theorem passes_of_all {stops : List Char} {text : Text}
    (h : (text.all fun c => isOrdinary c && !stops.contains c) = true) : Passes stops text :=
  passes_of_forall (ordinary_of_all h)

/-- A stop behind a text that is passed over is found. -/
theorem Passes.unnested_append {stops : List Char} {text : Text} {stop : Char}
    (h : Passes stops text) (hmem : stop ∈ stops) (hbare : isBare stop = true) (rest : Text) :
    unnested stops (text ++ stop :: rest) = .found stop rest := by
  rw [unnested, h stops [] _ fun _ c hc => hc]
  exact scan_of_mem_stops (lead_of_isBare hbare rest) hmem

/-- A stop that was found is found whatever stands behind it. -/
theorem unnested_congr_of_found {stops : List Char} {content after : Text} {stop : Char}
    (h : unnested stops (content ++ stop :: after) = .found stop after) (hbare : isBare stop = true)
    (rest : Text) : unnested stops (content ++ stop :: rest) = .found stop rest := by
  have hstar : (stop :: rest).head? ≠ some '*' := by
    simpa using (isBare_iff.1 hbare).2.2.1
  rw [unnested_append_of_found h hstar]
  exact (Passes.nil stops).unnested_append (scan_eq_found h).1 hbare rest

theorem parenthesized?_of_found {content rest : Text}
    (h : unnested [')'] (content ++ ')' :: rest) = .found ')' rest) :
    parenthesized? (content ++ ')' :: rest) = some (content, rest) := by
  rw [parenthesized?, h]
  simp

/-- The brackets of a group. -/
def IsPair (opener closer : Char) : Prop :=
  opener = '(' ∧ closer = ')' ∨ opener = '[' ∧ closer = ']'

theorem scan_opener {stops : List Char} {groups : List Group} {opener closer : Char}
    (hpair : IsPair opener closer) (hstop : groups = [] → opener ∉ stops) (text : Text) :
    scan stops groups (opener :: text) =
      scan stops (⟨closer, opener :: text⟩ :: groups) text := by
  rcases hpair with ⟨rfl, rfl⟩ | ⟨rfl, rfl⟩
  · rw [scan_of_lead_eq_plain (lead_of_isBare (by decide) text) hstop]
    rfl
  · rw [scan_of_lead_eq_plain (lead_of_isBare (by decide) text) hstop]
    rfl

theorem scan_closer {stops : List Char} {groups : List Group} {opener closer : Char}
    (hpair : IsPair opener closer) (start text : Text) :
    scan stops (⟨closer, start⟩ :: groups) (closer :: text) = scan stops groups text := by
  rcases hpair with ⟨-, rfl⟩ | ⟨-, rfl⟩
  · rw [scan_of_lead_eq_plain (lead_of_isBare (by decide) text) (by simp)]
    rfl
  · rw [scan_of_lead_eq_plain (lead_of_isBare (by decide) text) (by simp)]
    rfl

/-- A group passes as a whole if its content ends where the group does. -/
theorem passes_group {stops : List Char} {opener closer : Char} {content : Text}
    (hpair : IsPair opener closer) (hstop : opener ∉ stops)
    (h : unnested [closer] (content ++ [closer]) = .found closer []) :
    Passes stops (opener :: (content ++ [closer])) := by
  intro sought groups rest hsought
  obtain ⟨front, heq, hfront⟩ := exists_content_of_scan_eq_found h
  obtain rfl := List.append_cancel_right heq
  have hcloser : closer ≠ '*' := by
    rcases hpair with ⟨-, rfl⟩ | ⟨-, rfl⟩ <;> decide
  have hinside := hfront sought [] (⟨closer, opener :: (content ++ [closer] ++ rest)⟩ :: groups)
    (closer :: rest) rfl (by simp) (by simpa using hcloser)
  rw [List.nil_append] at hinside
  rw [List.cons_append, scan_opener hpair fun hnil hc => hstop (hsought hnil _ hc)]
  simp only [List.append_assoc, List.singleton_append] at hinside ⊢
  rw [hinside, scan_closer hpair]

theorem isOrdinary_of_isIdentChar {c : Char} (h : Ident.isIdentChar c = true) :
    isOrdinary c = true := by
  have hne : ∀ d, Ident.isIdentChar d = false → c ≠ d := by
    rintro d hd rfl
    exact absurd (hd.symm.trans h) (by decide)
  simp only [isOrdinary, isQuote, Bool.not_eq_true', Bool.or_eq_false_iff, beq_eq_false_iff_ne]
  refine ⟨⟨⟨⟨⟨⟨?_, ?_⟩, ?_, ?_⟩, ?_⟩, ?_⟩, ?_⟩, ?_⟩ <;> exact hne _ (by decide)

theorem isOrdinary_of_isTerminator {c : Char} (h : Ident.isTerminator c = true) :
    isOrdinary c = true := by
  simp only [Ident.isTerminator, Bool.or_eq_true, beq_iff_eq] at h
  rcases h with (((rfl | rfl) | rfl) | rfl) | rfl <;> decide

/-- Identifiers pass, whatever escapes they have, if no stop can stand in one unescaped. -/
theorem passes_of_ends_of_forall {stops : List Char} {name rest : Text} (h : Ident.Ends name rest)
    (hstops : ∀ c ∈ stops, Ident.isIdentChar c = false ∧ Ident.isTerminator c = false) :
    Passes stops name := by
  have hchar : ∀ c, Ident.isIdentChar c = true → isOrdinary c = true ∧ c ∉ stops := by
    refine fun c hc => ⟨isOrdinary_of_isIdentChar hc, fun hmem => ?_⟩
    exact absurd (hc.symm.trans (hstops c hmem).1) (by decide)
  have hblank : ∀ c, Ident.isTerminator c = true → isOrdinary c = true ∧ c ∉ stops := by
    refine fun c hc => ⟨isOrdinary_of_isTerminator hc, fun hmem => ?_⟩
    exact absurd (hc.symm.trans (hstops c hmem).2) (by decide)
  induction h with
  | nil => exact .nil stops
  | @char c name rest hc _ ih =>
    have hone : Passes stops [c] := passes_of_forall (by simpa using hchar c hc)
    exact hone.append ih
  | @escape body name rest hbody hlength _ ih =>
    obtain ⟨first, tail, rfl⟩ := List.exists_cons_of_ne_nil hbody
    have htail : Passes stops tail := by
      refine passes_of_forall fun c hc => ?_
      rcases Ident.forall_mem_tail_of_escapeLength_eq hbody hlength c hc with hdigit | hspace
      · exact hchar c (Ident.isIdentChar_of_isHexDigit hdigit)
      · exact hblank c hspace
    intro sought groups rest hsought
    have hlead : lead ('\\' :: (first :: tail ++ name) ++ rest) = .hidden (tail ++ name ++ rest) :=
      rfl
    rw [scan_of_lead_eq_hidden hlead]
    exact htail.append ih sought groups rest hsought

theorem passes_of_ends {stops : List Char} {name rest : Text} (h : Ident.Ends name rest)
    (hstops : stops.all Ident.isDelimiter = true) : Passes stops name := by
  apply passes_of_ends_of_forall h
  intro c hc
  have hdelimiter := Ident.isIdentChar_eq_false_of_isDelimiter (List.all_eq_true.1 hstops c hc)
  exact ⟨hdelimiter.1, hdelimiter.2.2⟩

end ScopedCss.Scan

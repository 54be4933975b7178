import ScopedCss.Text.Basic

/-!
# Unnested search

`unnested` looks for the first stop character that stands outside every quoted string, comment
and bracket group.  Escaped characters, strings and comments are passed over whole; `(` and `[`
open groups that only their own closing bracket ends.

An outcome names a suffix of the text, never a count, so what is found does not depend on what
stands in front of the text that is searched.  `locate` gives the same answers as byte offsets.
-/

namespace ScopedCss.Scan

/-- The two quote characters. -/
def isQuote (c : Char) : Bool :=
  c == '"' || c == '\''

/-- The text behind a string whose opening quote has been passed, or `none` when a line feed or
the end of the text comes before the closing quote.  A backslash escapes the next character. -/
def afterString? (quote : Char) : Text → Option Text
  | [] => none
  | ['\\'] => none
  | '\\' :: _ :: rest => afterString? quote rest
  | c :: rest =>
    if c = quote then some rest
    else if c = '\n' then none
    else afterString? quote rest

/-- The text behind a comment whose opening `/*` has been passed. -/
def afterComment? : Text → Option Text
  | [] => none
  | '*' :: '/' :: rest => some rest
  | _ :: rest => afterComment? rest

theorem length_afterString?_lt {quote : Char} {text rest : Text}
    (h : afterString? quote text = some rest) : rest.length < text.length := by
  fun_induction afterString? quote text with
  | case1 => simp at h
  | case2 => simp at h
  | case3 c tail ih =>
    have := ih h
    simp only [List.length_cons]
    omega
  | case4 tail =>
    simp only [Option.some.injEq] at h
    simp [h]
  | case5 => simp at h
  | case6 c tail _ _ _ _ ih =>
    have := ih h
    simp only [List.length_cons]
    omega

theorem length_afterComment?_lt {text rest : Text}
    (h : afterComment? text = some rest) : rest.length < text.length := by
  fun_induction afterComment? text with
  | case1 => simp at h
  | case2 tail =>
    simp only [Option.some.injEq] at h
    simp only [h, List.length_cons]
    omega
  | case3 c tail _ ih =>
    have := ih h
    simp only [List.length_cons]
    omega

theorem suffix_of_afterString?_eq_some {quote : Char} {text rest : Text}
    (h : afterString? quote text = some rest) : rest <:+ text := by
  fun_induction afterString? quote text with
  | case1 => simp at h
  | case2 => simp at h
  | case3 c tail ih => exact (ih h).trans ⟨['\\', c], rfl⟩
  | case4 tail =>
    simp only [Option.some.injEq] at h
    exact h ▸ List.suffix_cons _ _
  | case5 => simp at h
  | case6 c tail _ _ _ _ ih => exact (ih h).trans (List.suffix_cons c tail)

theorem suffix_of_afterComment?_eq_some {text rest : Text}
    (h : afterComment? text = some rest) : rest <:+ text := by
  fun_induction afterComment? text with
  | case1 => simp at h
  | case2 tail =>
    simp only [Option.some.injEq] at h
    exact h ▸ ⟨['*', '/'], rfl⟩
  | case3 c tail _ ih => exact (ih h).trans (List.suffix_cons c tail)

/-- How a text begins: with a unit that hides its characters from the search (an escape, a
string, a comment), with a string or comment that never ends, or with a character that counts. -/
inductive Lead where
  | ended
  | hidden (rest : Text)
  | unterminated
  | plain (c : Char) (rest : Text)
deriving Repr, DecidableEq

/-- The first unit of a text.  A backslash at the end of the text is a unit of its own. -/
def lead : Text → Lead
  | [] => .ended
  | '\\' :: rest => .hidden (rest.drop 1)
  | '/' :: '*' :: body =>
    match afterComment? body with
    | some rest => .hidden rest
    | none => .unterminated
  | c :: rest =>
    if isQuote c then
      match afterString? c rest with
      | some rest => .hidden rest
      | none => .unterminated
    else .plain c rest

theorem eq_cons_of_lead_eq_plain {text rest : Text} {c : Char} (h : lead text = .plain c rest) :
    text = c :: rest := by
  unfold lead at h
  split at h
  · simp at h
  · simp at h
  · split at h <;> simp at h
  · split at h
    · split at h <;> simp at h
    · simp only [Lead.plain.injEq] at h
      rw [h.1, h.2]

theorem length_lt_of_lead_eq_hidden {text rest : Text} (h : lead text = .hidden rest) :
    rest.length < text.length := by
  unfold lead at h
  split at h
  · simp at h
  · simp only [Lead.hidden.injEq] at h
    simp only [← h, List.length_drop, List.length_cons]
    omega
  · split at h
    · next hafter =>
      simp only [Lead.hidden.injEq] at h
      have := length_afterComment?_lt hafter
      simp only [← h, List.length_cons]
      omega
    · simp at h
  · split at h
    · split at h
      · next hafter =>
        simp only [Lead.hidden.injEq] at h
        have := length_afterString?_lt hafter
        simp only [← h, List.length_cons]
        omega
      · simp at h
    · simp at h

theorem suffix_of_lead_eq_hidden {text rest : Text} (h : lead text = .hidden rest) :
    rest <:+ text := by
  unfold lead at h
  split at h
  · simp at h
  · simp only [Lead.hidden.injEq] at h
    exact h ▸ (List.drop_suffix 1 _).trans (List.suffix_cons _ _)
  · split at h
    · next hafter =>
      simp only [Lead.hidden.injEq] at h
      exact h ▸ (suffix_of_afterComment?_eq_some hafter).trans ⟨['/', '*'], rfl⟩
    · simp at h
  · split at h
    · split at h
      · next hafter =>
        simp only [Lead.hidden.injEq] at h
        exact h ▸ (suffix_of_afterString?_eq_some hafter).trans (List.suffix_cons _ _)
      · simp at h
    · simp at h

/-- A bracket group that is still open: the bracket that ends it, and the text from its opening
bracket on. -/
structure Group where
  closer : Char
  start : Text
deriving Repr, DecidableEq

/-- The open groups, innermost first, after the character `c` at the head of `start`.  There are
none when `c` is a closing bracket that does not end the innermost group. -/
def Group.track (groups : List Group) (c : Char) (start : Text) : Option (List Group) :=
  if c = '(' then some (⟨')', start⟩ :: groups)
  else if c = '[' then some (⟨']', start⟩ :: groups)
  else if c = ')' ∨ c = ']' then
    match groups with
    | group :: outer => if group.closer = c then some outer else none
    | [] => none
  else some groups

/-- The result of a search. -/
inductive Outcome where
  /-- The stop character and the text behind it. -/
  | found (stop : Char) (after : Text)
  /-- The text ends with every group closed and has no stop. -/
  | absent
  /-- The text from the string, comment or bracket on that has no partner. -/
  | unbalanced (rest : Text)
deriving Repr, DecidableEq

/-- The search below the open `groups`. -/
def scan (stops : List Char) (groups : List Group) (text : Text) : Outcome :=
  match _hlead : lead text with
  | .ended =>
    match groups with
    | [] => .absent
    | group :: _ => .unbalanced group.start
  | .unterminated => .unbalanced text
  | .hidden rest => scan stops groups rest
  | .plain c rest =>
    if groups.isEmpty && stops.contains c then .found c rest
    else
      match Group.track groups c text with
      | some groups => scan stops groups rest
      | none => .unbalanced text
termination_by text.length
decreasing_by
  · exact length_lt_of_lead_eq_hidden _hlead
  · simp [eq_cons_of_lead_eq_plain _hlead]

/-- Finds the first of `stops` outside strings, comments and groups. -/
def unnested (stops : List Char) (text : Text) : Outcome :=
  scan stops [] text

/-- What is found is a stop, and it stands in the text. -/
theorem scan_eq_found {stops : List Char} {groups : List Group} {text after : Text} {stop : Char}
    (h : scan stops groups text = .found stop after) :
    stop ∈ stops ∧ stop :: after <:+ text := by
  fun_induction scan stops groups text with
  | case1 => simp at h
  | case2 => simp at h
  | case3 => simp at h
  | case4 groups text rest hlead ih =>
    exact ⟨(ih h).1, (ih h).2.trans (suffix_of_lead_eq_hidden hlead)⟩
  | case5 groups text c rest hlead hstop =>
    simp only [Outcome.found.injEq] at h
    obtain ⟨rfl, rfl⟩ := h
    simp only [Bool.and_eq_true, List.contains_iff_mem] at hstop
    exact ⟨hstop.2, eq_cons_of_lead_eq_plain hlead ▸ List.suffix_refl _⟩
  | case6 groups text c rest hlead hstop inner htrack ih =>
    refine ⟨(ih h).1, (ih h).2.trans ?_⟩
    exact eq_cons_of_lead_eq_plain hlead ▸ List.suffix_cons c rest
  | case7 => simp at h

/-- A found stop splits the text into what stands before it, the stop, and what stands after. -/
theorem append_of_unnested_eq_found {stops : List Char} {text after : Text} {stop : Char}
    (h : unnested stops text = .found stop after) :
    text.before (stop :: after) ++ stop :: after = text := by
  obtain ⟨consumed, rfl⟩ := (scan_eq_found h).2
  simp

/-- The byte offset of the first unnested stop, or of what has no partner. -/
def locate (stops : List Char) (text : Text) : Except Nat (Option Nat) :=
  match unnested stops text with
  | .found stop after => .ok (some (text.offsetOf (stop :: after)))
  | .absent => .ok none
  | .unbalanced rest => .error (text.offsetOf rest)

/-- The content of a group whose `(` has been passed, and the text behind its `)`. -/
def parenthesized? (text : Text) : Option (Text × Text) :=
  match unnested [')'] text with
  | .found stop after => some (text.before (stop :: after), after)
  | _ => none

/-- The content, its closing parenthesis and the rest make up the text. -/
theorem append_of_parenthesized?_eq_some {text content rest : Text}
    (h : parenthesized? text = some (content, rest)) : text = content ++ ')' :: rest := by
  simp only [parenthesized?] at h
  split at h
  · next stop after hfound =>
    simp only [Option.some.injEq, Prod.mk.injEq] at h
    obtain ⟨rfl, rfl⟩ := h
    have hstop : stop = ')' := by simpa using (scan_eq_found hfound).1
    subst hstop
    exact (append_of_unnested_eq_found hfound).symm
  · simp at h

end ScopedCss.Scan

import ScopedCss.Proofs.Scanning

/-!
# The grammar that the search decides

The search goes over a text once, with a stack of open groups.  What it finds can be said without a
stack: the text in front of a stop is a sequence of atoms, and an atom is an escape, a string, a
comment, a group of atoms, or a single character.  `Atoms stops text rest` is that grammar, with the
text behind the sequence as an index, since a `/` is an atom only if no `*` follows.  Escapes, strings
and comments are the units of `Hidden`.

* `Atoms.scan_eq`: the search goes over a sequence of atoms without a change to its stack.
* `exists_atoms`: from every place and with every stack, the search runs into something that has no
  partner, or it goes over atoms to a place where it halts.  The induction is on the length of the
  text, and a group is gone over twice: to its closing bracket, and from there.
* `marked_of_scan`: what has no partner begins with a quote, a bracket or `/*`.
-/

namespace ScopedCss.Scan

/-! ## Atoms -/

/-- In front of `rest`, the character begins no escape, no string and no comment. -/
structure Plain (c : Char) (rest : Text) : Prop where
  escape : c ≠ '\\'
  quote : isQuote c = false
  comment : c = '/' → rest.head? ≠ some '*'

/-- The brackets of groups. -/
def isBracket (c : Char) : Bool :=
  c == '(' || c == ')' || c == '[' || c == ']'

/-- In front of `rest`, the text is a sequence of atoms, none of which is a single character of
`stops` or a group that such a character opens.  Inside a group there are no stops. -/
inductive Atoms : List Char → Text → Text → Prop where
  | nil {stops : List Char} {text : Text} : Atoms stops text text
  | hidden {stops : List Char} {text behind rest : Text} :
    Hidden text behind → Atoms stops behind rest → Atoms stops text rest
  | single {stops : List Char} {c : Char} {behind rest : Text} :
    Plain c behind → isBracket c = false → c ∉ stops → Atoms stops behind rest →
    Atoms stops (c :: behind) rest
  | group {stops : List Char} {opener closer : Char} {inside behind rest : Text} :
    IsPair opener closer → opener ∉ stops → Atoms [] inside (closer :: behind) →
    Atoms stops behind rest → Atoms stops (opener :: inside) rest

/-! ## The first atom -/

theorem Plain.lead_eq {c : Char} {rest : Text} (h : Plain c rest) :
    lead (c :: rest) = .plain c rest :=
  lead_cons h.escape h.comment h.quote

theorem plain_of_lead {text rest : Text} {c : Char} (h : lead text = .plain c rest) :
    text = c :: rest ∧ Plain c rest := by
  obtain ⟨htext, hescape, hcomment, hquote⟩ := lead_eq_plain h
  exact ⟨htext, hescape, hquote, hcomment⟩

theorem eq_nil_of_lead_eq_ended {text : Text} (h : lead text = .ended) : text = [] := by
  unfold lead at h
  split at h
  · rfl
  · simp at h
  · split at h <;> simp at h
  · split at h
    · split at h <;> simp at h
    · simp at h

theorem Atoms.suffix {stops : List Char} {text rest : Text} (h : Atoms stops text rest) :
    rest <:+ text := by
  induction h with
  | nil => exact List.suffix_refl _
  | hidden hunit _ ih => exact ih.trans (suffix_of_lead_eq_hidden hunit.lead_eq)
  | single _ _ _ _ ih => exact ih.trans (List.suffix_cons _ _)
  | group _ _ _ _ hinside ih =>
    exact ih.trans (((List.suffix_cons _ _).trans hinside).trans (List.suffix_cons _ _))

/-! ## The search goes over atoms -/

/-- The stops that count below the open groups: all of them outside of groups, none inside. -/
def visible (stops : List Char) : List Group → List Char
  | [] => stops
  | _ :: _ => []

theorem not_mem_stops_of_visible {stops : List Char} {groups : List Group} {c : Char}
    (h : c ∉ visible stops groups) : groups = [] → c ∉ stops := by
  intro hnil
  subst hnil
  exact h

theorem track_of_isBracket_eq_false {c : Char} (h : isBracket c = false) (groups : List Group)
    (start : Text) : Group.track groups c start = some groups := by
  simp only [isBracket, Bool.or_eq_false_iff, beq_eq_false_iff_ne] at h
  obtain ⟨⟨⟨hround, hclose⟩, hsquare⟩, hend⟩ := h
  unfold Group.track
  rw [if_neg hround, if_neg hsquare, if_neg (not_or.2 ⟨hclose, hend⟩)]

theorem Plain.scan_eq {stops : List Char} {groups : List Group} {c : Char} {rest : Text}
    (h : Plain c rest) (hbracket : isBracket c = false) (hstop : groups = [] → c ∉ stops) :
    scan stops groups (c :: rest) = scan stops groups rest := by
  rw [scan_of_lead_eq_plain h.lead_eq hstop, track_of_isBracket_eq_false hbracket]

/-- The search goes over a sequence of atoms and comes out with the groups that it went in with. -/
theorem Atoms.scan_eq {stops : List Char} {text rest : Text} (h : Atoms stops text rest)
    {sought : List Char} {groups : List Group} (hsought : visible sought groups ⊆ stops) :
    scan sought groups text = scan sought groups rest := by
  induction h generalizing groups with
  | nil => rfl
  | hidden hunit _ ih => rw [scan_of_lead_eq_hidden hunit.lead_eq, ih hsought]
  | single hplain hbracket hstop _ ih =>
    have hfree := not_mem_stops_of_visible fun hc => hstop (hsought hc)
    rw [hplain.scan_eq hbracket hfree, ih hsought]
  | group hpair hstop _ _ ihinside ih =>
    have hfree := not_mem_stops_of_visible fun hc => hstop (hsought hc)
    rw [scan_opener hpair hfree, ihinside (List.nil_subset _), scan_closer hpair, ih hsought]

theorem Atoms.unnested_eq {stops : List Char} {text rest : Text} (h : Atoms stops text rest) :
    unnested stops text = unnested stops rest := by
  have hvisible : visible stops [] ⊆ stops := List.Subset.refl stops
  exact h.scan_eq hvisible

/-! ## The search halts behind atoms -/

/-- Where the search for `stops` halts below the open groups: at a stop or at the end of the text,
which may be a backslash that escapes nothing; inside a group, at its closing bracket. -/
def Halts (stops : List Char) : List Group → Text → Prop
  | [], rest => rest = [] ∨ rest = ['\\'] ∨
      ∃ stop after, rest = stop :: after ∧ stop ∈ stops ∧ Plain stop after
  | group :: _, rest => ∃ after, rest = group.closer :: after

theorem bracket_cases (c : Char) :
    (∃ closer, IsPair c closer) ∨ (c = ')' ∨ c = ']') ∨ isBracket c = false := by
  by_cases hround : c = '('
  · exact .inl ⟨')', .inl ⟨hround, rfl⟩⟩
  by_cases hsquare : c = '['
  · exact .inl ⟨']', .inr ⟨hsquare, rfl⟩⟩
  by_cases hclose : c = ')' ∨ c = ']'
  · exact .inr (.inl hclose)
  · rw [not_or] at hclose
    simp [isBracket, hround, hsquare, hclose.1, hclose.2]

/-- A closing bracket ends the innermost group or has no partner. -/
theorem scan_of_closing {stops : List Char} {groups : List Group} {c : Char} {rest : Text}
    (hc : c = ')' ∨ c = ']') (hplain : Plain c rest) (hstop : c ∉ visible stops groups) :
    scan stops groups (c :: rest) = .unbalanced (c :: rest) ∨ Halts stops groups (c :: rest) := by
  rw [scan_of_lead_eq_plain hplain.lead_eq (not_mem_stops_of_visible hstop)]
  have hround : c ≠ '(' := by rcases hc with rfl | rfl <;> decide
  have hsquare : c ≠ '[' := by rcases hc with rfl | rfl <;> decide
  cases groups with
  | nil => simp [Group.track, hround, hsquare, hc]
  | cons group outer =>
    by_cases hcloser : group.closer = c
    · exact .inr ⟨rest, by rw [hcloser]⟩
    · simp [Group.track, hround, hsquare, hc, hcloser]

/-- At the end of the text the search halts, unless a group is open. -/
theorem scan_of_end (stops : List Char) (groups : List Group) {text : Text}
    (h : text = [] ∨ text = ['\\']) :
    (∃ rest, scan stops groups text = .unbalanced rest) ∨ Halts stops groups text := by
  cases groups with
  | nil => exact .inr (h.imp id .inl)
  | cons group outer =>
    refine .inl ⟨group.start, ?_⟩
    rcases h with rfl | rfl
    · exact scan_nil_of_open stops group outer
    · have hlead : lead ['\\'] = .hidden [] := rfl
      rw [scan_of_lead_eq_hidden hlead]
      exact scan_nil_of_open stops group outer

/-- The search runs into something that has no partner, or goes over atoms to where it halts. -/
theorem exists_atoms (stops : List Char) (groups : List Group) (text : Text) :
    (∃ rest, scan stops groups text = .unbalanced rest) ∨
      ∃ rest, Atoms (visible stops groups) text rest ∧ Halts stops groups rest := by
  induction hlength : text.length using Nat.strongRecOn generalizing text groups with
  | ind size ih =>
    subst hlength
    cases hlead : lead text with
    | ended =>
      have hend := scan_of_end stops groups (.inl (eq_nil_of_lead_eq_ended hlead))
      exact hend.imp id fun hhalts => ⟨text, .nil, hhalts⟩
    | unterminated => exact .inl ⟨text, scan_of_lead_eq_unterminated hlead⟩
    | hidden behind =>
      by_cases hlone : text = ['\\']
      · have hend := scan_of_end stops groups (.inr hlone)
        exact hend.imp id fun hhalts => ⟨text, .nil, hhalts⟩
      · rw [scan_of_lead_eq_hidden hlead]
        refine (ih _ (length_lt_of_lead_eq_hidden hlead) groups behind rfl).imp id ?_
        intro ⟨rest, hatoms, hhalts⟩
        exact ⟨rest, .hidden (hidden_of_lead hlead hlone) hatoms, hhalts⟩
    | plain c behind =>
      obtain ⟨rfl, hplain⟩ := plain_of_lead hlead
      by_cases hstop : c ∈ visible stops groups
      · -- Only outside of groups does a stop count.
        cases groups with
        | nil => exact .inr ⟨_, .nil, .inr (.inr ⟨c, behind, rfl, hstop, hplain⟩)⟩
        | cons group outer => exact absurd hstop List.not_mem_nil
      have hfree := not_mem_stops_of_visible hstop
      rcases bracket_cases c with ⟨closer, hpair⟩ | hclosing | hbracket
      · rw [scan_opener hpair hfree]
        have hlt : behind.length < (c :: behind).length := Nat.lt_succ_self _
        rcases ih _ hlt (⟨closer, c :: behind⟩ :: groups) behind rfl with hbad | ⟨_, hinside, hend⟩
        · exact .inl hbad
        · -- The group ends at its closing bracket, and the search goes on behind it.
          obtain ⟨later, rfl⟩ := hend
          have hshort : later.length < (c :: behind).length := by
            have hle := hinside.suffix.length_le
            simp only [List.length_cons] at hle ⊢
            omega
          rw [hinside.scan_eq (List.nil_subset _), scan_closer hpair]
          refine (ih _ hshort groups later rfl).imp id ?_
          intro ⟨rest, hatoms, hhalts⟩
          exact ⟨rest, .group hpair hstop hinside hatoms, hhalts⟩
      · have hclosed := scan_of_closing hclosing hplain hstop
        exact hclosed.imp (fun hbad => ⟨_, hbad⟩) fun hhalts => ⟨_, .nil, hhalts⟩
      · rw [hplain.scan_eq hbracket hfree]
        refine (ih _ (Nat.lt_succ_self _) groups behind rfl).imp id ?_
        intro ⟨rest, hatoms, hhalts⟩
        exact ⟨rest, .single hplain hbracket hstop hatoms, hhalts⟩

/-! ## What has no partner -/

/-- The text begins with a quote, with a bracket or with `/*`. -/
def Marked : Text → Prop
  | [] => False
  | c :: rest => isQuote c = true ∨ isBracket c = true ∨ c = '/' ∧ rest.head? = some '*'

theorem marked_of_lead {text : Text} (h : lead text = .unterminated) : Marked text := by
  unfold lead at h
  split at h
  · simp at h
  · simp at h
  · exact .inr (.inr ⟨rfl, rfl⟩)
  · split at h
    · next hquote => exact .inl hquote
    · simp at h

/-- A group that is opened begins with a bracket. -/
theorem track_eq_some {groups later : List Group} {c : Char} {start : Text}
    (h : Group.track groups c start = some later) :
    ∀ group ∈ later, group ∈ groups ∨ group.start = start ∧ isBracket c = true := by
  intro group hgroup
  unfold Group.track at h
  split_ifs at h with hround hsquare hclose
  · obtain rfl := Option.some.inj h
    rcases List.mem_cons.1 hgroup with rfl | hmem
    · exact .inr ⟨rfl, by simp [isBracket, hround]⟩
    · exact .inl hmem
  · obtain rfl := Option.some.inj h
    rcases List.mem_cons.1 hgroup with rfl | hmem
    · exact .inr ⟨rfl, by simp [isBracket, hsquare]⟩
    · exact .inl hmem
  · cases groups with
    | nil => simp at h
    | cons first outer =>
      simp only at h
      split_ifs at h
      obtain rfl := Option.some.inj h
      exact .inl (List.mem_cons_of_mem _ hgroup)
  · obtain rfl := Option.some.inj h
    exact .inl hgroup

theorem isBracket_of_track_eq_none {groups : List Group} {c : Char} {start : Text}
    (h : Group.track groups c start = none) : isBracket c = true := by
  by_contra hbracket
  rw [Bool.not_eq_true] at hbracket
  rw [track_of_isBracket_eq_false hbracket] at h
  simp at h

/-- What the search reports stands in the text that it began with, and begins with a quote, with a
bracket or with `/*`.  The invariant is that this is so for all open groups. -/
theorem marked_of_scan {whole : Text} {stops : List Char} {groups : List Group} {text rest : Text}
    (htext : text <:+ whole) (hgroups : ∀ group ∈ groups, group.start <:+ whole ∧ Marked group.start)
    (h : scan stops groups text = .unbalanced rest) : rest <:+ whole ∧ Marked rest := by
  fun_induction scan stops groups text with
  | case1 => simp at h
  | case2 text hlead group outer =>
    obtain rfl := Outcome.unbalanced.inj h
    exact hgroups group List.mem_cons_self
  | case3 groups text hlead =>
    obtain rfl := Outcome.unbalanced.inj h
    exact ⟨htext, marked_of_lead hlead⟩
  | case4 groups text behind hlead ih =>
    exact ih ((suffix_of_lead_eq_hidden hlead).trans htext) hgroups h
  | case5 => simp at h
  | case6 groups text c behind hlead hstop later htrack ih =>
    obtain rfl := eq_cons_of_lead_eq_plain hlead
    refine ih ((List.suffix_cons _ _).trans htext) ?_ h
    intro group hgroup
    rcases track_eq_some htrack group hgroup with hmem | ⟨hstart, hbracket⟩
    · exact hgroups group hmem
    · rw [hstart]
      exact ⟨htext, .inr (.inl hbracket)⟩
  | case7 groups text c behind hlead hstop htrack =>
    obtain rfl := Outcome.unbalanced.inj h
    obtain rfl := eq_cons_of_lead_eq_plain hlead
    exact ⟨htext, .inr (.inl (isBracket_of_track_eq_none htrack))⟩

theorem unnested_eq_unbalanced {stops : List Char} {text rest : Text}
    (h : unnested stops text = .unbalanced rest) : rest <:+ text ∧ Marked rest :=
  marked_of_scan (List.suffix_refl text) (by simp) h

/-! ## The answers of the search -/

/-- At the byte offset `index` stands a stop that the search can see, behind a sequence of atoms. -/
def StopsAt (stops : List Char) (text : Text) (index : Nat) : Prop :=
  ∃ (front : Text) (stop : Char) (after : Text), text = front ++ stop :: after ∧
    front.byteSize = index ∧ Atoms stops text (stop :: after) ∧ stop ∈ stops ∧ Plain stop after

/-- The whole text is a sequence of atoms, but for a backslash that may end it. -/
def RunsOut (stops : List Char) (text : Text) : Prop :=
  Atoms stops text [] ∨ Atoms stops text ['\\']

theorem locate_of_stopsAt {stops : List Char} {text : Text} {index : Nat}
    (h : StopsAt stops text index) : locate stops text = .ok (some index) := by
  obtain ⟨front, stop, after, rfl, rfl, hatoms, hmem, hplain⟩ := h
  have hfound : unnested stops (front ++ stop :: after) = .found stop after := by
    rw [hatoms.unnested_eq, unnested, scan_of_mem_stops hplain.lead_eq hmem]
  rw [locate, hfound]
  simp only [Text.offsetOf_append]

theorem locate_of_runsOut {stops : List Char} {text : Text} (h : RunsOut stops text) :
    locate stops text = .ok none := by
  have habsent : unnested stops text = .absent := by
    rcases h with hatoms | hatoms
    · rw [hatoms.unnested_eq, unnested, scan_nil]
    · have hlead : lead ['\\'] = .hidden [] := rfl
      rw [hatoms.unnested_eq, unnested, scan_of_lead_eq_hidden hlead, scan_nil]
  rw [locate, habsent]

/-- There are three ways for a search to end. -/
theorem locate_cases (stops : List Char) (text : Text) :
    (∃ front rest : Text, text = front ++ rest ∧ Marked rest ∧
      locate stops text = .error front.byteSize) ∨
    (∃ index, StopsAt stops text index) ∨ RunsOut stops text := by
  rcases exists_atoms stops [] text with ⟨rest, hbad⟩ | ⟨rest, hatoms, hhalts⟩
  · obtain ⟨⟨front, rfl⟩, hmarked⟩ := unnested_eq_unbalanced hbad
    refine .inl ⟨front, rest, rfl, hmarked, ?_⟩
    rw [locate, unnested, hbad]
    simp only [Text.offsetOf_append]
  · right
    rcases hhalts with rfl | rfl | ⟨stop, after, rfl, hmem, hplain⟩
    · exact .inr (.inl hatoms)
    · exact .inr (.inr hatoms)
    · obtain ⟨front, rfl⟩ := hatoms.suffix
      exact .inl ⟨Text.byteSize front, front, stop, after, rfl, rfl, hatoms, hmem, hplain⟩

theorem locate_eq_some_iff {stops : List Char} {text : Text} {index : Nat} :
    locate stops text = .ok (some index) ↔ StopsAt stops text index := by
  refine ⟨fun h => ?_, locate_of_stopsAt⟩
  rcases locate_cases stops text with ⟨_, _, _, _, hbad⟩ | ⟨other, hstop⟩ | hout
  · simp [hbad] at h
  · rw [locate_of_stopsAt hstop] at h
    simp only [Except.ok.injEq, Option.some.injEq] at h
    exact h ▸ hstop
  · simp [locate_of_runsOut hout] at h

theorem locate_eq_none_iff {stops : List Char} {text : Text} :
    locate stops text = .ok none ↔ RunsOut stops text := by
  refine ⟨fun h => ?_, locate_of_runsOut⟩
  rcases locate_cases stops text with ⟨_, _, _, _, hbad⟩ | ⟨other, hstop⟩ | hout
  · simp [hbad] at h
  · simp [locate_of_stopsAt hstop] at h
  · exact hout

theorem Marked.byteSize_pos {text : Text} (h : Marked text) : 0 < text.byteSize := by
  cases text with
  | nil => exact absurd h id
  | cons c rest =>
    have hpos := c.utf8Size_pos
    rw [Text.byteSize_cons]
    omega

theorem locate_eq_error {stops : List Char} {text : Text} {index : Nat}
    (h : locate stops text = .error index) :
    index < text.byteSize ∧
      ∃ front rest : Text, text = front ++ rest ∧ front.byteSize = index ∧ Marked rest := by
  rcases locate_cases stops text with ⟨front, rest, htext, hmarked, hbad⟩ | ⟨_, hstop⟩ | hout
  · rw [hbad] at h
    have hindex : front.byteSize = index := Except.error.inj h
    have hpos := hmarked.byteSize_pos
    refine ⟨?_, front, rest, htext, hindex, hmarked⟩
    rw [htext, Text.byteSize_append]
    omega
  · simp [locate_of_stopsAt hstop] at h
  · simp [locate_of_runsOut hout] at h

/-- The search decides the grammar of atoms.  It finds a stop exactly where one stands behind a
sequence of atoms, and runs out exactly if the whole text is such a sequence; these exclude each
other, and a stop stands in one place only.  In all other cases it reports a place in the text where
a quote, a bracket or `/*` stands. -/
theorem locate_decides_atoms (stops : List Char) (text : Text) :
    (∀ index, locate stops text = .ok (some index) ↔ StopsAt stops text index) ∧
    (locate stops text = .ok none ↔ RunsOut stops text) ∧
    ((¬∃ index, StopsAt stops text index) ∧ ¬RunsOut stops text ↔
      ∃ index, locate stops text = .error index) ∧
    (∀ index, locate stops text = .error index → index < text.byteSize ∧
      ∃ front rest : Text, text = front ++ rest ∧ front.byteSize = index ∧ Marked rest) ∧
    (∀ index other, StopsAt stops text index → StopsAt stops text other → index = other) ∧
    ¬((∃ index, StopsAt stops text index) ∧ RunsOut stops text) := by
  refine ⟨fun _ => locate_eq_some_iff, locate_eq_none_iff, ?_, fun _ => locate_eq_error, ?_, ?_⟩
  -- The rest holds because the search gives one answer only.
  all_goals simp only [← locate_eq_some_iff, ← locate_eq_none_iff]
  · cases locate stops text with
    | error index => simp
    | ok answer => cases answer <;> simp
  · intro index other hindex hother
    rw [hindex] at hother
    simpa using hother
  · intro ⟨⟨index, hstop⟩, hout⟩
    simp [hstop] at hout

example :
    locate [';', '('] ['\\', ';', '[', ';', ']', '\'', '(', '\'', '(', ')'] = .ok (some 8) ∧
      locate ['*', '/'] ['/', '*', '/'] = .error 0 ∧ locate [';'] ['(', '\\'] = .error 0 := by
  decide +kernel

end ScopedCss.Scan

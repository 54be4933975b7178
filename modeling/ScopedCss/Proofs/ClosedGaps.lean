import ScopedCss.Proofs.TrimmedTexts

/-!
# Searching a text whose gaps were closed

A printer that puts trimmed pieces side by side takes out the blanks that stood between them.  The
search for a stop comes to the same end, unless the pieces make something new where they meet:

* a backslash at the end of the first one escapes what the second one begins with;
* `/` and `*` begin a comment, `*` and `/` end one.

`Smooth stops front back` says that none of this happens, and `unnested_closed` that the stop is
then found where it was.  The gap may well be inside a string, a comment or a group, so the proof
follows the units of the text up to the gap and looks into the unit that the gap stands in.
-/

namespace ScopedCss.Scan

/-! ## Backslashes at the end -/

/-- The text ends with a backslash that is not escaped itself. -/
def hangs : Text → Bool
  | [] => false
  | ['\\'] => true
  | '\\' :: _ :: rest => hangs rest
  | _ :: rest => hangs rest

theorem hangs_cons {c : Char} (h : c ≠ '\\') (rest : Text) : hangs (c :: rest) = hangs rest := by
  rw [hangs]
  · exact fun hc => absurd hc h
  · exact fun _ _ hc => absurd hc h

/-- What stands in front of another character does not matter. -/
theorem hangs_append_cons {c : Char} (h : c ≠ '\\') (front rest : Text) :
    hangs (front ++ c :: rest) = hangs rest := by
  fun_induction hangs front with
  | case1 => exact hangs_cons h rest
  | case2 => rfl
  | case3 d front ih => exact ih
  | case4 d front hlone hescape ih =>
    rw [List.cons_append, hangs_cons (ne_backslash_of_cases hlone hescape), ih]

/-- A unit that hides its characters leaves no backslash behind. -/
theorem hangs_hidden_unit {unit rest : Text} (h : lead (unit ++ rest) = .hidden rest)
    (hne : unit ++ rest ≠ ['\\']) (back : Text) : hangs (unit ++ back) = hangs back := by
  rcases hidden_unit_cases h hne with ⟨c, rfl⟩ | ⟨body, c, rfl, -, hc⟩
  · rfl
  · rw [List.append_assoc, List.singleton_append, hangs_append_cons hc]

variable {stops : List Char} {groups : List Group} {stop : Char} {after : Text}

theorem ne_backslash_of_scan_eq_found {text rest : Text} (hlead : lead text = .hidden rest)
    (h : scan stops groups rest = .found stop after) : text ≠ ['\\'] := by
  rintro rfl
  obtain rfl : rest = [] := (Lead.hidden.inj hlead).symm
  exact scan_nil_ne_found h

/-- A stop that was found is not escaped. -/
theorem hangs_eq_false_of_scan_eq_found {text front : Text}
    (h : scan stops groups text = .found stop after) (htext : text = front ++ stop :: after) :
    hangs front = false := by
  fun_induction scan stops groups text generalizing front with
  | case1 => simp at h
  | case2 => simp at h
  | case3 => simp at h
  | case4 groups text tail hlead ih =>
    have hne := ne_backslash_of_scan_eq_found hlead h
    obtain ⟨unit, rfl, hunit⟩ := exists_unit_of_lead_eq_hidden hlead hne
    obtain ⟨content, rfl⟩ := (scan_eq_found h).2
    obtain rfl : unit ++ content = front := by
      rw [← List.append_assoc] at htext
      exact List.append_cancel_right htext
    rw [hangs_hidden_unit hlead hne]
    exact ih h rfl
  | case5 groups text c tail hlead hstop =>
    obtain ⟨rfl, rfl⟩ := Outcome.found.inj h
    rw [eq_cons_of_lead_eq_plain hlead] at htext
    have hlength := congrArg List.length htext
    simp only [List.length_append, List.length_cons] at hlength
    obtain rfl : front = [] := List.length_eq_zero_iff.1 (by omega)
    rfl
  | case6 groups text c tail hlead hstop next htrack ih =>
    obtain ⟨rfl, hescape, -⟩ := lead_eq_plain hlead
    obtain ⟨content, rfl⟩ := (scan_eq_found h).2
    obtain rfl : c :: content = front := by
      rw [← List.cons_append] at htext
      exact List.append_cancel_right htext
    rw [hangs_cons hescape]
    exact ih h rfl
  | case7 => simp at h

/-! ## Where two pieces meet -/

/-- Nothing new begins or ends where `front` and `back` meet.  A backslash that hangs may escape a
character that the search would pass over anyway. -/
structure Smooth (stops : List Char) (front back : Text) : Prop where
  escape : hangs front = true →
    ∃ c rest, back = c :: rest ∧ isOrdinary c = true ∧ c ∉ stops ∧ c ≠ '\n'
  opening : front.getLast? = some '/' → back.head? ≠ some '*'
  closing : front.getLast? = some '*' → back.head? ≠ some '/'

theorem Smooth.of_append {unit later back : Text} (h : Smooth stops (unit ++ later) back)
    (hhangs : hangs (unit ++ later) = hangs later) : Smooth stops later back := by
  have hlast : ∀ c, later.getLast? = some c → (unit ++ later).getLast? = some c := by
    intro c hc
    rw [List.getLast?_append, hc]
    rfl
  exact ⟨fun hlater => h.escape (hhangs.trans hlater), fun hc => h.opening (hlast _ hc),
    fun hc => h.closing (hlast _ hc)⟩

/-- Behind a piece that does not hang, a character that belongs to no comment. -/
theorem Smooth.of_head {front : Text} {c : Char} (h : hangs front = false) (hstar : c ≠ '*')
    (hslash : c ≠ '/') (rest : Text) : Smooth stops front (c :: rest) where
  escape hfront := absurd (h.symm.trans hfront) (by decide)
  opening _ hc := hstar (Option.some.inj hc)
  closing _ hc := hslash (Option.some.inj hc)

/-- In front of any piece, a character that is a unit of its own. -/
theorem Smooth.of_last {c : Char} (h : isBare c = true) (front back : Text) :
    Smooth stops (front ++ [c]) back := by
  obtain ⟨hescape, hslash, hstar, -⟩ := isBare_iff.1 h
  refine ⟨fun hhangs => ?_, fun hc => ?_, fun hc => ?_⟩
  · rw [hangs_append_cons hescape] at hhangs
    exact absurd hhangs (by decide)
  · exact absurd (by simpa using hc) hslash
  · exact absurd (by simpa using hc) hstar

/-- Behind any piece, an ordinary character, unless it is the `*` of a comment. -/
theorem Smooth.of_ordinary {front : Text} {c : Char} (h : isOrdinary c = true) (hstop : c ∉ stops)
    (hline : c ≠ '\n') (hcomment : c = '*' → front.getLast? ≠ some '/') (rest : Text) :
    Smooth stops front (c :: rest) where
  escape _ := ⟨c, rest, rfl, h, hstop, hline⟩
  opening hlast hc := hcomment (Option.some.inj hc) hlast
  closing _ hc := (isOrdinary_iff.1 h).2.1 (Option.some.inj hc)

variable {gap back : Text}

theorem afterString?_blanks {quote : Char} (hquote : isQuote quote = true)
    (hgap : ∀ c ∈ gap, Text.isBlank c = true) {rest : Text}
    (h : afterString? quote (gap ++ back) = some rest) : afterString? quote back = some rest := by
  induction gap with
  | nil => exact h
  | cons c gap ih =>
    rw [List.forall_mem_cons] at hgap
    obtain ⟨hescape, -, hplain, -⟩ := isOrdinary_iff.1 (isOrdinary_of_isBlank hgap.1)
    have hc : c ≠ quote := by
      rintro rfl
      exact absurd (hplain.symm.trans hquote) (by decide)
    rw [List.cons_append, afterString?_cons hescape, if_neg hc] at h
    split at h
    · simp at h
    · exact ih hgap.2 h

/-- A string that goes on behind a gap ends where it did. -/
theorem afterString?_closed {quote : Char} (hquote : isQuote quote = true) {front rest : Text}
    (hgap : ∀ c ∈ gap, Text.isBlank c = true) (hne : gap ≠ [])
    (hescape : hangs front = true →
      ∃ c rest, back = c :: rest ∧ isOrdinary c = true ∧ c ∉ stops ∧ c ≠ '\n')
    (h : afterString? quote (front ++ (gap ++ back)) = some rest)
    (hrest : rest.length < (gap ++ back).length) :
    afterString? quote (front ++ back) = some rest := by
  fun_induction hangs front with
  | case1 => exact afterString?_blanks hquote hgap h
  | case2 =>
    -- The backslash took a blank of the gap, and takes an ordinary character now.
    obtain ⟨g, gap, rfl⟩ := List.exists_cons_of_ne_nil hne
    have hback := afterString?_blanks hquote (List.forall_mem_cons.1 hgap).2 h
    obtain ⟨c, tail, rfl, hc, -, hline⟩ := hescape rfl
    obtain ⟨hslash, -, hplain, -⟩ := isOrdinary_iff.1 hc
    have hquoted : c ≠ quote := by
      rintro rfl
      exact absurd (hplain.symm.trans hquote) (by decide)
    rw [afterString?_cons hslash, if_neg hquoted, if_neg hline] at hback
    exact hback
  | case3 d front ih => exact ih hescape h
  | case4 d front hlone hslash ih =>
    rw [List.cons_append, afterString?_cons (ne_backslash_of_cases hlone hslash)] at h ⊢
    split at h
    · obtain rfl := Option.some.inj h
      rw [List.length_append] at hrest
      omega
    · next hend =>
      rw [if_neg hend]
      split at h
      · simp at h
      · next hline =>
        rw [if_neg hline]
        exact ih hescape h

theorem afterComment?_cons {c : Char} {rest : Text} (h : c = '*' → rest.head? ≠ some '/') :
    afterComment? (c :: rest) = afterComment? rest := by
  rw [afterComment?]
  rintro tail rfl rfl
  exact h rfl rfl

theorem head?_of_blanks (hgap : ∀ c ∈ gap, Text.isBlank c = true) (hne : gap ≠ []) (back : Text) :
    ∃ c, (gap ++ back).head? = some c ∧ Text.isBlank c = true := by
  obtain ⟨g, gap, rfl⟩ := List.exists_cons_of_ne_nil hne
  exact ⟨g, rfl, hgap g List.mem_cons_self⟩

theorem afterComment?_blanks (hgap : ∀ c ∈ gap, Text.isBlank c = true) :
    afterComment? (gap ++ back) = afterComment? back := by
  induction gap with
  | nil => rfl
  | cons c gap ih =>
    rw [List.forall_mem_cons] at hgap
    rw [List.cons_append, afterComment?_cons, ih hgap.2]
    rintro rfl
    exact absurd hgap.1 (by decide)

/-- A comment that goes on behind a gap ends where it did. -/
theorem afterComment?_closed {front rest : Text} (hgap : ∀ c ∈ gap, Text.isBlank c = true)
    (hne : gap ≠ []) (hclosing : front.getLast? = some '*' → back.head? ≠ some '/')
    (h : afterComment? (front ++ (gap ++ back)) = some rest)
    (hrest : rest.length < (gap ++ back).length) : afterComment? (front ++ back) = some rest := by
  induction front with
  | nil =>
    rw [List.nil_append, afterComment?_blanks hgap] at h
    exact h
  | cons c front ih =>
    have hstep : ∀ other, (front = [] → c = '*' → other.head? ≠ some '/') →
        afterComment? (c :: (front ++ other)) = afterComment? (front ++ other) := by
      intro other hother
      refine afterComment?_cons fun hstar hslash => ?_
      cases front with
      | nil => exact hother rfl hstar hslash
      | cons d front =>
        -- The comment would have ended in front of the gap.
        obtain rfl : d = '/' := Option.some.inj hslash
        subst hstar
        obtain rfl : front ++ (gap ++ back) = rest := Option.some.inj h
        rw [List.length_append] at hrest
        omega
    have hblank : (gap ++ back).head? ≠ some '/' := by
      obtain ⟨g, hhead, hg⟩ := head?_of_blanks hgap hne back
      rintro hslash
      obtain rfl : g = '/' := Option.some.inj (hhead.symm.trans hslash)
      exact absurd hg (by decide)
    rw [List.cons_append, hstep _ fun _ _ => hblank] at h
    rw [List.cons_append, hstep back ?_]
    · refine ih (fun hlast => hclosing ?_) h
      rw [List.getLast?_cons, hlast]
      rfl
    · rintro rfl rfl
      exact hclosing rfl

/-- A unit that begins in front of a gap and ends behind it ends where it did, unless it is an
escape that takes a blank of the gap. -/
theorem lead_closed {front rest : Text} (hgap : ∀ c ∈ gap, Text.isBlank c = true) (hne : gap ≠ [])
    (hfront : front ≠ []) (hsmooth : Smooth stops front back)
    (h : lead (front ++ (gap ++ back)) = .hidden rest)
    (hrest : rest.length < (gap ++ back).length) :
    lead (front ++ back) = .hidden rest ∨
      front = ['\\'] ∧ ∃ c later, gap = c :: later ∧ rest = later ++ back := by
  obtain ⟨c, front, rfl⟩ := List.exists_cons_of_ne_nil hfront
  by_cases hescape : c = '\\'
  · subst hescape
    cases front with
    | nil =>
      obtain ⟨g, gap, rfl⟩ := List.exists_cons_of_ne_nil hne
      exact .inr ⟨rfl, g, gap, rfl, (Lead.hidden.inj h).symm⟩
    | cons d front =>
      obtain rfl : front ++ (gap ++ back) = rest := Lead.hidden.inj h
      rw [List.length_append] at hrest
      omega
  left
  by_cases hcomment : c = '/' ∧ (front ++ (gap ++ back)).head? = some '*'
  · obtain ⟨rfl, hstar⟩ := hcomment
    cases front with
    | nil =>
      obtain ⟨g, hhead, hg⟩ := head?_of_blanks hgap hne back
      obtain rfl : g = '*' := Option.some.inj (hhead.symm.trans hstar)
      exact absurd hg (by decide)
    | cons d body =>
      obtain rfl : d = '*' := Option.some.inj hstar
      rw [List.cons_append, List.cons_append, lead] at h ⊢
      split at h
      · next hafter =>
        obtain rfl := Lead.hidden.inj h
        have hclosing : body.getLast? = some '*' → back.head? ≠ some '/' := by
          intro hlast
          refine hsmooth.closing ?_
          rw [List.getLast?_cons, List.getLast?_cons, hlast]
          rfl
        rw [afterComment?_closed hgap hne hclosing hafter hrest]
      · simp at h
  · by_cases hquote : isQuote c = true
    · rw [List.cons_append, lead_quote hquote] at h ⊢
      split at h
      · next hafter =>
        obtain rfl := Lead.hidden.inj h
        have hinner := fun hfront => hsmooth.escape ((hangs_cons hescape front).trans hfront)
        rw [afterString?_closed hquote hgap hne hinner hafter hrest]
      · simp at h
    · have hplain := lead_cons hescape (fun hc hstar => hcomment ⟨hc, hstar⟩)
        (Bool.eq_false_iff.2 hquote)
      rw [List.cons_append, hplain] at h
      simp at h

/-- A unit that ends in front of a gap does not see it. -/
theorem exists_unit_in_front {front rest : Text} (h : lead (front ++ (gap ++ back)) = .hidden rest)
    (hslash : front ++ (gap ++ back) ≠ ['\\']) (hrest : (gap ++ back).length ≤ rest.length) :
    ∃ unit later, unit ≠ [] ∧ front = unit ++ later ∧ rest = later ++ (gap ++ back) ∧
      hangs front = hangs later ∧ ∀ other, lead (unit ++ other) = .hidden other := by
  obtain ⟨unit, htext, hunit⟩ := exists_unit_of_lead_eq_hidden h hslash
  obtain ⟨later, rfl⟩ : gap ++ back <:+ rest :=
    List.suffix_of_suffix_length_le (List.suffix_append _ _) ⟨unit, htext.symm⟩ hrest
  obtain rfl : front = unit ++ later := by
    rw [← List.append_assoc unit] at htext
    exact List.append_cancel_right htext
  refine ⟨unit, later, ?_, rfl, rfl, hangs_hidden_unit (htext ▸ h) (htext ▸ hslash) later, hunit⟩
  rintro rfl
  exact absurd (hunit []) (by simp [lead])

/-- A character that stands for itself in front of a gap does so when the gap is closed. -/
theorem lead_plain_closed {c : Char} {front : Text} (hsmooth : Smooth stops (c :: front) back)
    (h : lead (c :: (front ++ (gap ++ back))) = .plain c (front ++ (gap ++ back))) :
    lead (c :: (front ++ back)) = .plain c (front ++ back) := by
  obtain ⟨-, hescape, hcomment, hquote⟩ := lead_eq_plain h
  refine lead_cons hescape (fun hc => ?_) hquote
  -- What follows the `/` is the same character as before, or the start of `back`.
  cases front with
  | nil => exact hsmooth.opening (congrArg some hc)
  | cons d front => exact hcomment hc

/-! ## The search behind a closed gap -/

/-- The first step of a search that finds a stop. -/
theorem scan_eq_found_cases {text : Text} (h : scan stops groups text = .found stop after) :
    (∃ rest, lead text = .hidden rest ∧ scan stops groups rest = .found stop after) ∨
    lead text = .plain stop after ∨
    ∃ c rest next, lead text = .plain c rest ∧ (groups = [] → c ∉ stops) ∧
      Group.track groups c text = some next ∧ scan stops next rest = .found stop after := by
  rw [scan.eq_def] at h
  split at h
  · split at h <;> simp at h
  · simp at h
  · next rest hlead => exact .inl ⟨rest, hlead, h⟩
  · next c rest hlead =>
    right
    split at h
    · obtain ⟨rfl, rfl⟩ := Outcome.found.inj h
      exact .inl hlead
    · next hstop =>
      split at h
      · next next htrack =>
        refine .inr ⟨c, rest, next, hlead, ?_, htrack, h⟩
        rintro rfl hmem
        exact hstop (by simpa using hmem)
      · simp at h

/-- Of the groups around a stop that was found, only the brackets that end them matter. -/
theorem scan_congr_of_found {text : Text} (h : scan stops groups text = .found stop after)
    (hbare : isBare stop = true) {inner : List Group}
    (hinner : inner.map Group.closer = groups.map Group.closer) :
    scan stops inner text = .found stop after := by
  obtain ⟨content, rfl, hcontent⟩ := exists_content_of_scan_eq_found h
  have hstar : (stop :: after).head? ≠ some '*' := by
    simpa using (isBare_iff.1 hbare).2.2.1
  have hsame := hcontent stops inner [] (stop :: after) hinner (fun _ c hc => hc) hstar
  have hself := hcontent stops groups [] (stop :: after) rfl (fun _ c hc => hc) hstar
  rw [List.append_nil] at hsame hself
  rw [hsame, ← hself]
  exact h

section

variable (hbare : isBare stop = true) (hstops : ∀ c ∈ stops, Text.isBlank c = false)
  (hgap : ∀ c ∈ gap, Text.isBlank c = true) (hne : gap ≠ [])

include hbare hstops hgap hne

/-- The search goes on as it did behind a unit that the gap stands in. -/
theorem scan_closed_of_hidden {front rest : Text} (hfront : front ≠ [])
    (hsmooth : Smooth stops front back) (hlead : lead (front ++ (gap ++ back)) = .hidden rest)
    (hlt : rest.length < (gap ++ back).length)
    (hrest : scan stops groups rest = .found stop after) {inner : List Group}
    (hinner : inner.map Group.closer = groups.map Group.closer) :
    scan stops inner (front ++ back) = .found stop after := by
  rcases lead_closed hgap hne hfront hsmooth hlead hlt with hclosed | ⟨rfl, g, later, rfl, rfl⟩
  · rw [scan_of_lead_eq_hidden hclosed]
    exact scan_congr_of_found hrest hbare hinner
  · -- The backslash hides an ordinary character in the place of the blank.
    obtain ⟨c, tail, rfl, hc, hcstop, -⟩ := hsmooth.escape rfl
    have hlater : Passes stops later :=
      passes_of_forall (ordinary_of_blank hstops (List.forall_mem_cons.1 hgap).2)
    have hone : Passes stops [c] := passes_of_forall (List.forall_mem_singleton.2 ⟨hc, hcstop⟩)
    have htail : scan stops groups tail = .found stop after := by
      rw [hlater stops groups _ fun _ c hc => hc] at hrest
      rw [← hone stops groups tail fun _ c hc => hc]
      exact hrest
    have hhidden : lead ('\\' :: c :: tail) = .hidden tail := rfl
    rw [List.singleton_append, scan_of_lead_eq_hidden hhidden]
    exact scan_congr_of_found htail hbare hinner

/-- A stop behind a gap is found where it was when the gap is closed. -/
theorem scan_closed {front : Text}
    (h : scan stops groups (front ++ (gap ++ back)) = .found stop after)
    (hback : stop :: after <:+ back) (hsmooth : Smooth stops front back) {inner : List Group}
    (hinner : inner.map Group.closer = groups.map Group.closer) :
    scan stops inner (front ++ back) = .found stop after := by
  induction hsize : front.length using Nat.strong_induction_on
    generalizing groups front inner with
  | _ size ih =>
    by_cases hfront : front = []
    · subst hfront
      have hpasses : Passes stops gap := passes_of_forall (ordinary_of_blank hstops hgap)
      rw [List.nil_append, hpasses stops groups back fun _ c hc => hc] at h
      exact scan_congr_of_found h hbare hinner
    rcases scan_eq_found_cases h with
      ⟨rest, hlead, hrest⟩ | hlead | ⟨c, rest, next, hlead, hfree, htrack, hrest⟩
    · by_cases hlt : rest.length < (gap ++ back).length
      · exact scan_closed_of_hidden hbare hstops hgap hne hfront hsmooth hlead hlt hrest hinner
      · obtain ⟨unit, later, hunit, rfl, rfl, hhangs, hother⟩ := exists_unit_in_front hlead
          (ne_backslash_of_scan_eq_found hlead hrest) (by omega)
        have hlength := List.length_pos_iff.2 hunit
        rw [List.length_append] at hsize
        rw [List.append_assoc, scan_of_lead_eq_hidden (hother _)]
        exact ih later.length (by omega) hrest (hsmooth.of_append hhangs) hinner rfl
    · -- The stop does not stand in front of the gap.
      have hlength := congrArg List.length (eq_cons_of_lead_eq_plain hlead)
      have hle := hback.length_le
      have hpos := List.length_pos_iff.2 hfront
      simp only [List.length_append, List.length_cons] at hlength hle
      omega
    · obtain ⟨d, front, rfl⟩ := List.exists_cons_of_ne_nil hfront
      have htext := eq_cons_of_lead_eq_plain hlead
      rw [List.cons_append] at htext
      obtain ⟨rfl, rfl⟩ := List.cons.inj htext
      have hempty : inner = [] → d ∉ stops := by
        rintro rfl
        exact hfree (by simpa using hinner.symm)
      obtain ⟨later, hlater, hclosers⟩ := track_append htrack hinner [] (d :: (front ++ back))
      rw [List.append_nil, List.append_nil] at hlater
      have hrestSmooth : Smooth stops front back :=
        Smooth.of_append (show Smooth stops ([d] ++ front) back from hsmooth)
          (hangs_cons (lead_eq_plain hlead).2.1 front)
      rw [List.cons_append, scan_of_lead_eq_plain (lead_plain_closed hsmooth hlead) hempty, hlater]
      rw [List.length_cons] at hsize
      exact ih front.length (by omega) hrest hrestSmooth hclosers rfl

end

/-- Where no group is open, the gap may be empty. -/
theorem unnested_closed {front : Text} (hbare : isBare stop = true)
    (hstops : ∀ c ∈ stops, Text.isBlank c = false) (hgap : ∀ c ∈ gap, Text.isBlank c = true)
    (h : unnested stops (front ++ (gap ++ back)) = .found stop after)
    (hback : stop :: after <:+ back) (hsmooth : Smooth stops front back) :
    unnested stops (front ++ back) = .found stop after := by
  by_cases hne : gap = []
  · subst hne
    exact h
  · exact scan_closed hbare hstops hgap hne h hback hsmooth rfl

end ScopedCss.Scan

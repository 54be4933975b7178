import ScopedCss.Proofs.Blanks
import ScopedCss.Proofs.Scanning

/-!
# Searching behind a trimmed text

A reader cuts a construct off where the search found its end, and trims it.  If the construct ends
with an escaped blank, trimming takes the blank away and leaves the backslash open, which then hides
the character that is printed behind it.  Nothing worse happens: strings and comments end with a
character that is no blank, so a cut at blanks is never inside them.

The main fact is `scan_cut`: behind what was cut off, a space ends what the cut left open, and the
search goes on as if nothing had been cut.
-/

namespace ScopedCss.Scan

/-! ## How a hidden unit ends -/

/-- A unit that hides its characters is an escape, or its last character is neither an ordinary one
nor a backslash. -/
theorem hidden_unit_cases {unit rest : Text} (h : lead (unit ++ rest) = .hidden rest)
    (hne : unit ++ rest ≠ ['\\']) :
    (∃ c, unit = ['\\', c]) ∨
      ∃ body c, unit = body ++ [c] ∧ isOrdinary c = false ∧ c ≠ '\\' := by
  generalize htext : unit ++ rest = text at h hne
  cases hidden_of_lead h hne with
  | escape =>
    have hunit : unit ++ rest = ['\\', _] ++ rest := htext
    exact .inl ⟨_, List.append_cancel_right hunit⟩
  | @string quote body _ hquote hbody =>
    obtain ⟨inner, rfl⟩ := hbody.exists_concat
    refine .inr ⟨quote :: inner, quote, ?_, by simp [isOrdinary, hquote],
      ne_backslash_of_isQuote hquote⟩
    exact List.append_cancel_right htext
  | @comment body _ hbody =>
    refine .inr ⟨'/' :: '*' :: (body ++ ['*']), '/', ?_, by decide, by decide⟩
    refine List.append_cancel_right (htext.trans ?_)
    simp

/-! ## Cutting a text that was passed over -/

variable {stops : List Char} {groups : List Group} {stop : Char} {after : Text}

/-- The search stops at its first character only if no group is open. -/
theorem groups_eq_nil_of_scan_eq_found (hbare : isBare stop = true)
    (h : scan stops groups (stop :: after) = .found stop after) : groups = [] := by
  by_contra hne
  rw [scan_of_lead_eq_plain (lead_of_isBare hbare after) fun hnil => absurd hnil hne] at h
  split at h
  · have hle := (scan_eq_found h).2.length_le
    rw [List.length_cons] at hle
    omega
  · simp at h

/-- A unit that hides its characters and begins in front of a cut ends there as well, unless it is
an escape that the cut goes through. -/
theorem hidden_unit_cut {front gap rest : Text} (hfront : front ≠ [])
    (hgap : ∀ c ∈ gap, isOrdinary c = true)
    (h : lead (front ++ (gap ++ stop :: after)) = .hidden rest) (hrest : stop :: after <:+ rest) :
    (∃ later, rest = later ++ (gap ++ stop :: after) ∧
      ∀ other, lead (front ++ other) = .hidden (later ++ other)) ∨
    (front = ['\\'] ∧ ∃ c later, gap = c :: later ∧ rest = later ++ stop :: after) := by
  have hne : front ++ (gap ++ stop :: after) ≠ ['\\'] := by
    intro heq
    have hlength := congrArg List.length heq
    have hpos := List.length_pos_iff.2 hfront
    simp only [List.length_append, List.length_cons, List.length_nil] at hlength
    omega
  obtain ⟨unit, htext, hunit⟩ := exists_unit_of_lead_eq_hidden h hne
  rcases List.append_eq_append_iff.1 htext with ⟨taken, rfl, hback⟩ | ⟨later, rfl, rfl⟩
  · obtain ⟨kept, rfl⟩ := hrest
    have hsplit : gap = taken ++ kept := by
      rw [← List.append_assoc] at hback
      exact List.append_cancel_right hback
    subst hsplit
    by_cases htaken : taken = []
    · subst htaken
      rw [List.append_nil] at hunit
      exact .inl ⟨[], rfl, hunit⟩
    · -- The unit ends behind the cut, with an ordinary character, so it is an escape.
      rw [htext] at h hne
      rcases hidden_unit_cases h hne with ⟨c, hescape⟩ | ⟨body, c, hbody, hc, -⟩
      · have hone : front = ['\\'] ∧ taken = [c] := by
          rcases List.append_eq_cons_iff.1 hescape with ⟨hnil, -⟩ | ⟨tail, rfl, htail⟩
          · exact absurd hnil hfront
          · rcases List.append_eq_singleton_iff.1 htail.symm with ⟨rfl, rfl⟩ | ⟨-, hnil⟩
            · exact ⟨rfl, rfl⟩
            · exact absurd hnil htaken
        obtain ⟨rfl, rfl⟩ := hone
        exact .inr ⟨rfl, c, kept, rfl, rfl⟩
      · obtain ⟨init, d, rfl⟩ := (List.eq_nil_or_concat taken).resolve_left htaken
        rw [List.concat_eq_append, ← List.append_assoc] at hbody
        obtain rfl := List.singleton_inj.1 (List.append_inj' hbody rfl).2
        exact absurd ((hgap d (by simp)).symm.trans hc) (by decide)
  · exact .inl ⟨later, rfl, fun other => by rw [List.append_assoc, hunit]⟩

/-- A character that stands for itself in front of a cut does so as well if a space is there. -/
theorem lead_plain_cut {c : Char} {front back : Text}
    (h : lead (c :: (front ++ back)) = .plain c (front ++ back)) (other : Text) :
    lead (c :: (front ++ ' ' :: other)) = .plain c (front ++ ' ' :: other) := by
  obtain ⟨-, hescape, hcomment, hquote⟩ := lead_eq_plain h
  refine lead_cons hescape (fun hslash => ?_) hquote
  -- What follows the `/` is the same character as before, or the space.
  cases front with
  | nil => simp
  | cons d front => exact hcomment hslash

/-- The ordinary characters in front of a stop that was found may be any others. -/
theorem scan_gap {gap other : Text} (hbare : isBare stop = true)
    (h : scan stops groups (gap ++ stop :: after) = .found stop after) (hgap : Passes stops gap)
    (hother : Passes stops other) {inner : List Group}
    (hinner : inner.map Group.closer = groups.map Group.closer) (rest : Text) :
    scan stops inner (other ++ rest) = scan stops [] rest := by
  rw [hgap stops groups _ fun _ c hc => hc] at h
  obtain rfl := groups_eq_nil_of_scan_eq_found hbare h
  obtain rfl : inner = [] := by simpa using hinner
  exact hother stops [] rest fun _ c hc => hc

/-- A text that was passed over with ordinary characters behind it is also passed over with other
ordinary characters behind it, as long as the first of them is a space. -/
theorem scan_cut {text : Text} (h : scan stops groups text = .found stop after)
    (hbare : isBare stop = true) {front gap : Text} (htext : text = front ++ (gap ++ stop :: after))
    (hgap : ∀ c ∈ gap, isOrdinary c = true ∧ c ∉ stops) {other : Text}
    (hother : ∀ c ∈ ' ' :: other, isOrdinary c = true ∧ c ∉ stops) {inner : List Group}
    (hinner : inner.map Group.closer = groups.map Group.closer) (rest : Text) :
    scan stops inner (front ++ ' ' :: (other ++ rest)) = scan stops [] rest := by
  have hpasses : Passes stops gap := passes_of_forall hgap
  have hspace : Passes stops (' ' :: other) := passes_of_forall hother
  fun_induction scan stops groups text generalizing front gap inner with
  | case1 => simp at h
  | case2 => simp at h
  | case3 => simp at h
  | case4 groups text tail hlead ih =>
    cases front with
    | nil =>
      subst htext
      rw [← scan_of_lead_eq_hidden hlead] at h
      exact scan_gap hbare h hpasses hspace hinner rest
    | cons c front =>
      subst htext
      rcases hidden_unit_cut (by simp) (fun c hc => (hgap c hc).1) hlead (scan_eq_found h).2 with
        ⟨later, rfl, hunit⟩ | ⟨hescape, d, later, rfl, rfl⟩
      · rw [scan_of_lead_eq_hidden (hunit _)]
        exact ih h rfl hgap hinner hpasses
      · -- The backslash hides the space in the place of the character that was cut off.
        have hhidden : lead ('\\' :: ' ' :: (other ++ rest)) = .hidden (other ++ rest) := rfl
        rw [hescape, List.singleton_append, scan_of_lead_eq_hidden hhidden]
        exact scan_gap hbare h (passes_of_forall (List.forall_mem_cons.1 hgap).2)
          (passes_of_forall (List.forall_mem_cons.1 hother).2) hinner rest
  | case5 groups text c tail hlead hstop =>
    obtain ⟨rfl, rfl⟩ := Outcome.found.inj h
    rw [eq_cons_of_lead_eq_plain hlead] at htext
    have hlength := congrArg List.length htext
    simp only [List.length_append, List.length_cons] at hlength
    obtain rfl : front = [] := List.length_eq_zero_iff.1 (by omega)
    rw [Bool.and_eq_true, List.isEmpty_iff] at hstop
    obtain rfl : inner = [] := by simpa [hstop.1] using hinner
    exact hspace stops [] rest fun _ c hc => hc
  | case6 groups text c tail hlead hstop next htrack ih =>
    have hfree : groups = [] → c ∉ stops := by
      rintro rfl hc
      exact hstop (by simpa using hc)
    cases front with
    | nil =>
      have hscan : scan stops groups (gap ++ stop :: after) = .found stop after := by
        rw [List.nil_append] at htext
        rw [← htext, scan_of_lead_eq_plain hlead hfree, htrack]
        exact h
      exact scan_gap hbare hscan hpasses hspace hinner rest
    | cons d front =>
      obtain ⟨rfl, rfl⟩ := List.cons.inj (htext.symm.trans (eq_cons_of_lead_eq_plain hlead))
      subst htext
      have hplain := lead_plain_cut hlead (other ++ rest)
      have hempty : inner = [] → d ∉ stops := by
        rintro rfl
        exact hfree (by simpa using hinner.symm)
      obtain ⟨later, hlater, hclosers⟩ :=
        track_append htrack hinner [] (d :: (front ++ ' ' :: (other ++ rest)))
      rw [List.append_nil, List.append_nil] at hlater
      rw [List.cons_append, scan_of_lead_eq_plain hplain hempty, hlater]
      exact ih h rfl hgap hclosers hpasses
  | case7 => simp at h

/-! ## Trimming -/

theorem isOrdinary_of_isBlank {c : Char} (h : Text.isBlank c = true) : isOrdinary c = true := by
  have hne : ∀ d, Text.isBlank d = false → c ≠ d := by
    rintro d hd rfl
    exact absurd (hd.symm.trans h) (by decide)
  simp only [isOrdinary, isQuote, Bool.not_eq_true', Bool.or_eq_false_iff, beq_eq_false_iff_ne]
  refine ⟨⟨⟨⟨⟨⟨?_, ?_⟩, ?_, ?_⟩, ?_⟩, ?_⟩, ?_⟩, ?_⟩ <;> exact hne _ (by decide)

theorem ordinary_of_blank (hstops : ∀ c ∈ stops, Text.isBlank c = false) {gap : Text}
    (hgap : ∀ c ∈ gap, Text.isBlank c = true) : ∀ c ∈ gap, isOrdinary c = true ∧ c ∉ stops := by
  refine fun c hc => ⟨isOrdinary_of_isBlank (hgap c hc), fun hmem => ?_⟩
  exact absurd ((hgap c hc).symm.trans (hstops c hmem)) (by decide)

/-- Behind a construct that was trimmed, a space and ordinary characters are passed over. -/
theorem unnested_trim {front : Text}
    (h : unnested stops (front ++ stop :: after) = .found stop after) (hbare : isBare stop = true)
    (hstops : ∀ c ∈ stops, Text.isBlank c = false) {other : Text}
    (hother : ∀ c ∈ ' ' :: other, isOrdinary c = true ∧ c ∉ stops) (rest : Text) :
    unnested stops (front.trim ++ ' ' :: (other ++ rest)) = unnested stops rest := by
  obtain ⟨lead, back, hlead, hback, hsplit⟩ := Text.exists_append_trim_append front
  have hpasses : Passes stops lead := passes_of_forall (ordinary_of_blank hstops hlead)
  rw [hsplit, List.append_assoc, List.append_assoc, unnested,
    hpasses stops [] _ fun _ c hc => hc] at h
  exact scan_cut h hbare rfl (ordinary_of_blank hstops hback) hother rfl rest

end ScopedCss.Scan

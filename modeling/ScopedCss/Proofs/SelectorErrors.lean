import Mathlib.Data.List.DropRight
import ScopedCss.Proofs.SelectorReading

/-!
# The places of selector errors

`Located before rest message` says what stands around the place of an error, in terms of its
message.  Every error of a selector text is located in that text, however deep the argument lies in
which it arose (`parse_error_located`).

A failure is followed from the inside out.  `Failure.LocatedBehind front text` is its place when
the text stands behind `front`; a failure that points into a text (`Failure.PointsInto`) does so
wherever the text stands, and points into every longer text too.  Only a missing selector at the
start depends on what stands in front of the text: the opening parenthesis of an argument, or
nothing.
-/

namespace ScopedCss.Selector

/-- Behind this text, up to blanks, a selector or an argument begins. -/
def Opens (before : Text) : Prop :=
  ∀ c ∈ before.trimEnd.getLast?, c = '('

/-- What stands in front of and behind the place of an error with the message. -/
inductive Located (before rest : Text) : String → Prop where
  | unexpected {c : Char} :
    rest.head? = some c → Text.isBlank c = false → Located before rest s!"unexpected `{c}`"
  | combinator {c : Char} :
    (before.rdropWhile Text.isSpace).getLast? = some c → c = '>' ∨ c = '+' ∨ c = '~' →
    Located before rest "expected a selector after combinator"
  | comma :
    (before.rdropWhile Text.isSpace).getLast? = some ',' →
    Located before rest "expected a selector after `,`"
  | parenthesis : rest.head? = some '(' → Located before rest "unbalanced parentheses"
  | bracket : rest.head? = some '[' → Located before rest "unterminated attribute selector"
  | malformed : before.getLast? = some '[' → Located before rest "malformed attribute selector"
  | attributeName : before.getLast? = some '[' → Located before rest "expected attribute name"
  | selector : Opens before → Located before rest "expected a selector"

/-- More text behind the place does not matter. -/
theorem Located.append {before rest : Text} {message : String} (h : Located before rest message)
    (more : Text) : Located before (rest ++ more) message := by
  have hhead : ∀ c, rest.head? = some c → (rest ++ more).head? = some c := by
    intro c hc
    rw [List.head?_append, hc]
    rfl
  cases h with
  | unexpected hc hblank => exact .unexpected (hhead _ hc) hblank
  | combinator hlast hc => exact .combinator hlast hc
  | comma hlast => exact .comma hlast
  | parenthesis hc => exact .parenthesis (hhead _ hc)
  | bracket hc => exact .bracket (hhead _ hc)
  | malformed hlast => exact .malformed hlast
  | attributeName hlast => exact .attributeName hlast
  | selector hopens => exact .selector hopens

theorem opens_nil : Opens [] :=
  nofun

theorem opens_parenthesis (front : Text) : Opens (front ++ ['(']) := by
  intro c hc
  rw [Text.trimEnd_append_of_ne_nil (by simp) (by decide)] at hc
  simpa using hc.symm

theorem Opens.append {front gap : Text} (h : Opens front)
    (hgap : ∀ c ∈ gap, Text.isBlank c = true) : Opens (front ++ gap) := by
  rw [Opens, Text.trimEnd_append hgap]
  exact h

/-- Spaces behind a character are stripped down to it. -/
theorem getLast?_rdropWhile {after : Text} {c : Char} (front gap : Text)
    (hc : Text.isSpace c = false) (hafter : ∀ d ∈ after, Text.isSpace d = true) :
    ((front ++ (gap ++ c :: after)).rdropWhile Text.isSpace).getLast? = some c := by
  have hreverse : ∀ d ∈ after.reverse, Text.isSpace d = true := by simpa using hafter
  rw [← List.append_assoc, List.rdropWhile, List.reverse_append, List.reverse_cons,
    List.append_assoc, List.dropWhile_append_of_pos hreverse, List.singleton_append,
    List.dropWhile_cons_of_neg (by simp [hc])]
  simp

/-! ## Failures in a longer text -/

namespace Failure

variable {failure : Failure} {front text rest : Text}

/-- The place of the failure when the text stands behind `front`. -/
def LocatedBehind (failure : Failure) (front text : Text) : Prop :=
  ∃ before, text = before ++ failure.tail ∧
    Located (front ++ before) failure.tail failure.cause.message

/-- The place of the failure wherever the text stands. -/
def PointsInto (failure : Failure) (text : Text) : Prop :=
  ∀ front, failure.LocatedBehind front text

@[simp] theorem tail_here (cause : Cause) (rest : Text) : (here cause rest).tail = rest :=
  List.append_nil rest

theorem locatedBehind_here (cause : Cause) (before : Text)
    (h : Located (front ++ before) rest cause.message) :
    (here cause rest).LocatedBehind front (before ++ rest) :=
  ⟨before, by rw [tail_here], by rw [tail_here]; exact h⟩

theorem LocatedBehind.append {consumed : Text}
    (h : failure.LocatedBehind (front ++ consumed) text) :
    failure.LocatedBehind front (consumed ++ text) := by
  obtain ⟨before, rfl, hlocated⟩ := h
  rw [List.append_assoc] at hlocated
  exact ⟨consumed ++ before, (List.append_assoc _ _ _).symm, hlocated⟩

theorem PointsInto.of_suffix (h : failure.PointsInto rest) (hsuffix : rest <:+ text) :
    failure.PointsInto text := by
  obtain ⟨consumed, rfl⟩ := hsuffix
  exact fun front => (h (front ++ consumed)).append

/-- A failure of an argument, seen from the text around it. -/
theorem LocatedBehind.enclose {start argument : Text}
    (h : failure.LocatedBehind (front ++ start ++ ['(']) argument) (after : Text) :
    (failure.enclose after).LocatedBehind front (start ++ '(' :: (argument ++ ')' :: after)) := by
  obtain ⟨before, rfl, hlocated⟩ := h
  have hlocated := hlocated.append (')' :: after)
  refine ⟨start ++ '(' :: before, ?_, ?_⟩
  · simp [Failure.enclose, tail]
  · simpa [Failure.enclose, tail] using hlocated

end Failure

/-! ## Lexemes -/

namespace Lexeme

variable {text : Text} {failure : Failure}

theorem attribute?_eq_error {content : Text} {cause : Cause}
    (h : attribute? content = .error cause) :
    cause = .expectedAttributeName ∨ cause = .malformedAttribute := by
  unfold attribute? at h
  split at h
  · dsimp only at h
    split at h
    · exact .inl (Except.error.inj h).symm
    · simp at h
  · dsimp only at h
    split at h
    · exact .inr (Except.error.inj h).symm
    · simp at h

theorem pointsInto_of_readAttribute {body : Text} (h : readAttribute body = .failed failure) :
    failure.PointsInto ('[' :: body) := by
  intro front
  have hbracket : (front ++ ['[']).getLast? = some '[' := by simp
  unfold readAttribute at h
  split at h
  · split at h
    · simp at h
    · next hcause =>
      obtain rfl := Reply.failed.inj h
      rcases attribute?_eq_error hcause with rfl | rfl
      · exact Failure.locatedBehind_here _ ['['] (.attributeName hbracket)
      · exact Failure.locatedBehind_here _ ['['] (.malformed hbracket)
  · obtain rfl := Reply.failed.inj h
    exact Failure.locatedBehind_here .unterminatedAttribute [] (.bracket rfl)

theorem pointsInto_of_readPseudo {kind : PseudoKind} (h : readPseudo kind text = .failed failure) :
    failure.PointsInto text := by
  intro front
  unfold readPseudo at h
  split at h
  · simp at h
  · next name body hname =>
    split at h
    · obtain rfl := Reply.failed.inj h
      rw [Ident.append_of_read?_eq_some hname]
      exact Failure.locatedBehind_here .unbalancedParentheses name (.parenthesis rfl)
    · dsimp only at h
      split at h <;> simp at h
  · simp at h

theorem readName_ne_failed {make : Text → Selector} : readName make text ≠ .failed failure := by
  unfold readName
  split <;> simp

theorem pointsInto_of_read (h : read text = .failed failure) : failure.PointsInto text := by
  unfold read at h
  split at h
  · exact absurd h readName_ne_failed
  · exact absurd h readName_ne_failed
  · exact (pointsInto_of_readPseudo h).of_suffix ⟨[':', ':'], rfl⟩
  · exact (pointsInto_of_readPseudo h).of_suffix (List.suffix_cons _ _)
  · exact pointsInto_of_readAttribute h
  · simp at h
  · simp at h
  · exact absurd h readName_ne_failed

end Lexeme

/-! ## The levels of the grammar -/

/-- The failures of all arguments of fewer than `size` characters are located. -/
def ArgumentsLocated (size : Nat) : Prop :=
  ∀ {mode : Mode} {argument front : Text} {failure : Failure}, argument.length < size →
    Opens front → read mode argument = .error failure → failure.LocatedBehind front argument

namespace Grammar

variable {size : Nat} {mode : Mode} {text : Text} {failure : Failure}

theorem pointsInto_of_simple (harguments : ArgumentsLocated size) (hsize : text.length ≤ size)
    (h : simple read text = .failed failure) : failure.PointsInto text := by
  unfold simple at h
  split at h
  · simp at h
  · next hlexeme =>
    obtain rfl := Reply.failed.inj h
    exact Lexeme.pointsInto_of_read hlexeme
  · simp at h
  · next head argument rest hlexeme =>
    have hlt := Lexeme.argument_length_lt_of_read_eq_read hlexeme
    split at h
    · simp at h
    · next inner hinner =>
      obtain rfl := Reply.failed.inj h
      intro front
      have hargument := harguments (hlt.trans_le hsize) (opens_parenthesis (front ++ head.render))
        hinner
      cases Lexeme.read_eq_read_iff.1 hlexeme with
      | query => exact hargument.enclose rest

theorem pointsInto_of_simples (harguments : ArgumentsLocated size) (hsize : text.length ≤ size)
    (h : simples read text = .error failure) : failure.PointsInto text := by
  fun_induction simples read text with
  | case1 => simp at h
  | case2 text inner hsimple =>
    obtain rfl := Except.error.inj h
    exact pointsInto_of_simple harguments hsize hsimple
  | case3 => simp at h
  | case4 text part rest hsimple inner hsimples ih =>
    have hsuffix := (derives_of_simple derived_read hsimple).suffix
    obtain rfl := Except.error.inj h
    exact (ih (hsuffix.length_le.trans hsize) hsimples).of_suffix hsuffix

theorem pointsInto_of_compound (harguments : ArgumentsLocated size) (hsize : text.length ≤ size)
    (h : compound read text = .failed failure) : failure.PointsInto text := by
  unfold compound at h
  split at h
  · simp at h
  · simp at h
  · next hsimples =>
    obtain rfl := Reply.failed.inj h
    exact pointsInto_of_simples harguments hsize hsimples

/-- A selector that is missing behind a mark and the spaces after it. -/
theorem pointsInto_behind {cause : Cause} {mark : Char} {after : Text}
    (hmark : Text.isSpace mark = false)
    (hlocated : ∀ before, (before.rdropWhile Text.isSpace).getLast? = some mark →
      Located before (Text.skipSpace after) cause.message) (gap : Text) :
    (Failure.here cause (Text.skipSpace after)).PointsInto (gap ++ mark :: after) := by
  intro front
  have hplace := Failure.locatedBehind_here cause (gap ++ mark :: Text.leadingSpace after)
    (hlocated (front ++ _) (getLast?_rdropWhile front gap hmark isSpace_of_mem_leadingSpace))
  rw [List.append_assoc, List.cons_append, Text.leadingSpace_append_skipSpace] at hplace
  exact hplace

theorem pointsInto_behind_combinator {c : Char} (hc : isCombinator c = true) (gap after : Text) :
    (Failure.here .expectedAfterCombinator (Text.skipSpace after)).PointsInto
      (gap ++ c :: after) := by
  refine pointsInto_behind (isSpace_eq_false_of_isCombinator hc) (fun before hlast => ?_) gap
  exact .combinator hlast (by simpa [isCombinator, or_assoc] using hc)

theorem pointsInto_of_chain (harguments : ArgumentsLocated size) {left : Selector}
    (hsize : text.length ≤ size) (h : chain read left text = .error failure) :
    failure.PointsInto text := by
  fun_induction chain read left text with
  | case1 => simp at h
  | case2 left text combinator rest hlink right after hright ih =>
    have hrest : rest <:+ text := ⟨combinator, (link_eq_explicit hlink).symm⟩
    have hafter := (derives_of_compound derived_read hright).suffix.trans hrest
    exact (ih (hafter.length_le.trans hsize) h).of_suffix hafter
  | case3 left text combinator rest hlink hright =>
    obtain rfl := Except.error.inj h
    obtain ⟨gap, c, after, rfl, -, rfl, -, hc⟩ := exists_of_link_eq_explicit hlink
    exact pointsInto_behind_combinator hc gap after
  | case4 left text combinator rest hlink inner hright =>
    have hrest : rest <:+ text := ⟨combinator, (link_eq_explicit hlink).symm⟩
    obtain rfl := Except.error.inj h
    exact (pointsInto_of_compound harguments (hrest.length_le.trans hsize) hright).of_suffix hrest
  | case5 left text combinator rest hlink right after hright ih =>
    have hrest : rest <:+ text := ⟨combinator, (link_eq_descendant hlink).symm⟩
    have hafter := (derives_of_compound derived_read hright).suffix.trans hrest
    exact (ih (hafter.length_le.trans hsize) h).of_suffix hafter
  | case6 => simp at h
  | case7 left text combinator rest hlink inner hright =>
    have hrest : rest <:+ text := ⟨combinator, (link_eq_descendant hlink).symm⟩
    obtain rfl := Except.error.inj h
    exact (pointsInto_of_compound harguments (hrest.length_le.trans hsize) hright).of_suffix hrest

theorem pointsInto_of_complex (harguments : ArgumentsLocated size) (hsize : text.length ≤ size)
    (h : complex read text = .failed failure) : failure.PointsInto text := by
  unfold complex at h
  split at h
  · simp at h
  · next hfirst =>
    obtain rfl := Reply.failed.inj h
    exact pointsInto_of_compound harguments hsize hfirst
  · next hfirst =>
    have hrest := (derives_of_compound derived_read hfirst).suffix
    split at h
    · simp at h
    · next hchain =>
      obtain rfl := Reply.failed.inj h
      exact (pointsInto_of_chain harguments (hrest.length_le.trans hsize) hchain).of_suffix hrest

theorem pointsInto_of_relative (harguments : ArgumentsLocated size) (hsize : text.length ≤ size)
    (h : relative read text = .failed failure) : failure.PointsInto text := by
  unfold relative at h
  split at h
  · next c after =>
    split at h
    · next hc =>
      have hrest : Text.skipSpace after <:+ c :: after :=
        (List.dropWhile_suffix _).trans (List.suffix_cons _ _)
      unfold anchored at h
      split at h
      · simp at h
      · obtain rfl := Reply.failed.inj h
        exact pointsInto_behind_combinator hc [] after
      · next hcomplex =>
        obtain rfl := Reply.failed.inj h
        exact (pointsInto_of_complex harguments (hrest.length_le.trans hsize) hcomplex).of_suffix
          hrest
    · exact pointsInto_of_complex harguments hsize h
  · exact pointsInto_of_complex harguments hsize h

theorem pointsInto_of_branch (harguments : ArgumentsLocated size) (hsize : text.length ≤ size)
    (h : branch read mode text = .failed failure) : failure.PointsInto text := by
  cases mode with
  | plain => exact pointsInto_of_complex harguments hsize h
  | relative => exact pointsInto_of_relative harguments hsize h

theorem pointsInto_behind_comma {start : Text} (h : comma? text = some start) :
    (Failure.here .expectedAfterComma start).PointsInto text := by
  have hsplit := Text.leadingSpace_append_skipSpace text
  unfold comma? at h
  split at h
  · next after hskip =>
    obtain rfl := Option.some.inj h
    rw [hskip] at hsplit
    rw [← hsplit]
    exact pointsInto_behind (by decide) (fun before hlast => .comma hlast) _
  · simp at h

theorem pointsInto_of_branches (harguments : ArgumentsLocated size) (hsize : text.length ≤ size)
    (h : branches read mode text = .error failure) : failure.PointsInto text := by
  fun_induction branches read mode text with
  | case1 => simp at h
  | case2 text start hcomma hbranch =>
    obtain rfl := Except.error.inj h
    exact pointsInto_behind_comma hcomma
  | case3 text start hcomma inner hbranch =>
    have hstart := suffix_of_comma? hcomma
    obtain rfl := Except.error.inj h
    exact (pointsInto_of_branch harguments (hstart.length_le.trans hsize) hbranch).of_suffix hstart
  | case4 => simp at h
  | case5 text start hcomma item rest hitem inner hitems ih =>
    have hrest := (derives_of_branch derived_read hitem).suffix.trans (suffix_of_comma? hcomma)
    obtain rfl := Except.error.inj h
    exact (ih (hrest.length_le.trans hsize) hitems).of_suffix hrest

theorem locatedBehind_of_list (harguments : ArgumentsLocated size) (hsize : text.length ≤ size)
    {front : Text} (hfront : Opens front) (h : list read mode text = .error failure) :
    failure.LocatedBehind front text := by
  unfold list at h
  split at h
  · obtain rfl := Except.error.inj h
    refine Failure.locatedBehind_here .expectedSelector [] (.selector ?_)
    rw [List.append_nil]
    exact hfront
  · next hbranch =>
    obtain rfl := Except.error.inj h
    exact pointsInto_of_branch harguments hsize hbranch front
  · next hfirst =>
    have hrest := (derives_of_branch derived_read hfirst).suffix
    split at h
    · simp at h
    · simp at h
    · next hitems =>
      obtain rfl := Except.error.inj h
      exact (pointsInto_of_branches harguments (hrest.length_le.trans hsize) hitems).of_suffix
        hrest front

theorem locatedBehind_of_complete (harguments : ArgumentsLocated size) {source : Text}
    (hsize : source.length ≤ size) {front : Text} (hfront : Opens front)
    (h : complete read mode source = .error failure) : failure.LocatedBehind front source := by
  unfold complete at h
  split at h
  · next hblank =>
    obtain rfl := Except.error.inj h
    have hopens : Opens (front ++ source) := hfront.append (List.all_eq_true.1 hblank)
    have hplace : (Failure.here .expectedSelector []).LocatedBehind front (source ++ []) :=
      Failure.locatedBehind_here .expectedSelector source (.selector hopens)
    rw [List.append_nil] at hplace
    exact hplace
  · obtain ⟨gap, hgap, hsource⟩ := Text.exists_append_trimStart source
    split at h
    · next hlist =>
      obtain rfl := Except.error.inj h
      have hlength : source.trimStart.length ≤ source.length :=
        (List.dropWhile_suffix _).length_le
      have hplace := locatedBehind_of_list harguments (hlength.trans hsize) (hfront.append hgap)
        hlist
      rw [hsource]
      exact hplace.append
    · next tree rest hlist =>
      split at h
      · simp at h
      · next c after htrim =>
        obtain rfl := Except.error.inj h
        have hsuffix : c :: after <:+ source := htrim ▸ (List.dropWhile_suffix _).trans
          ((derives_of_list derived_read hlist).suffix.trans (List.dropWhile_suffix _))
        have hblank : Text.isBlank c = false := Text.head?_trimStart c (by rw [htrim]; rfl)
        have hpoints : (Failure.here (.unexpected c) (c :: after)).PointsInto (c :: after) :=
          fun front => Failure.locatedBehind_here (.unexpected c) [] (.unexpected rfl hblank)
        exact hpoints.of_suffix hsuffix front

end Grammar

/-- Every failure of a selector text is located in it. -/
theorem locatedBehind_of_read {mode : Mode} {source front : Text} {failure : Failure}
    (hfront : Opens front) (h : read mode source = .error failure) :
    failure.LocatedBehind front source := by
  rw [read_eq_complete] at h
  exact Grammar.locatedBehind_of_complete
    (fun _ hopens hargument => locatedBehind_of_read hopens hargument) le_rfl hfront h
termination_by source.length

/-- Every error of a selector text points at a place between two characters of it, and what stands
there is what the message says. -/
theorem parse_error_located {mode : Mode} {source : Text} {error : Error}
    (h : parse mode source = .error error) :
    ∃ before rest, source = before ++ rest ∧ error.offset = before.byteSize ∧
      error.offset ≤ source.byteSize ∧ Located before rest error.cause.message := by
  unfold parse at h
  split at h
  · simp at h
  · next failure hread =>
    obtain rfl := Except.error.inj h
    obtain ⟨before, hsource, hlocated⟩ := locatedBehind_of_read opens_nil hread
    rw [List.nil_append] at hlocated
    have hoffset : (failure.toError source).offset = before.byteSize := by
      rw [Failure.toError, hsource, Text.offsetOf_append]
    refine ⟨before, failure.tail, hsource, hoffset, ?_, hlocated⟩
    rw [hoffset, hsource, Text.byteSize_append]
    exact Nat.le_add_right _ _

/-- A selector with a combinator that nothing follows, two arguments deep and behind characters of
more than one byte. -/
def danglingSource : Text :=
  ".é:not( .a:is(  ü > b, .c\t> ) ) d".toList

theorem parse_error_located_sample :
    parse .plain danglingSource = .error ⟨30, .expectedAfterCombinator⟩ ∧
    ∃ before rest, danglingSource = before ++ rest ∧ 30 = before.byteSize ∧
      30 ≤ danglingSource.byteSize ∧
      Located before rest "expected a selector after combinator" := by
  have hparse : parse .plain danglingSource = .error ⟨30, .expectedAfterCombinator⟩ :=
    eq_error_of_map (by decide +kernel)
  exact ⟨hparse, parse_error_located hparse⟩

end ScopedCss.Selector

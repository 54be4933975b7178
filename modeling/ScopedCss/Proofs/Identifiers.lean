import Mathlib.Data.List.TakeWhile
import ScopedCss.Text.Ident

/-!
# Where identifiers end

An identifier is read as far as it goes, so where it ends depends on the text behind it.  `Ends`
says that a name is made of identifier characters and escapes and that, in front of a given rest, it
ends where it is said to.  This is the same as being read in front of that rest
(`read?_append_eq_some_iff`).

The text behind a name is not the same before and after printing.  `Ends.of_alike` says which other
texts end a name as well: those that begin with the same character, and those that begin with a
character that ends every name.  It rests on `escapeLength_congr`, since an escape may take in the
white space behind it.  `Ends.append_suffix` and `ends_of_forall` are for names that were made.
-/

namespace ScopedCss.Ident

/-- The white space that may end a hexadecimal escape. -/
def isTerminator (c : Char) : Bool :=
  c == ' ' || c == '\t' || c == '\n' || c == '\r' || c == '\x0c'

/-- A character that ends every identifier in front of it. -/
def isDelimiter (c : Char) : Bool :=
  !isIdentChar c && c != '\\' && !isTerminator c

theorem isIdentChar_of_isHexDigit {c : Char} (h : isHexDigit c = true) : isIdentChar c = true := by
  simp only [isHexDigit, Bool.or_eq_true, Bool.and_eq_true, decide_eq_true_eq, Char.le_def] at h
  have halphanum : c.isAlphanum = true := by
    rcases h with (hdigit | ⟨hlow, hhigh⟩) | ⟨hlow, hhigh⟩
    · exact Bool.or_eq_true_iff.2 (.inr hdigit)
    · have hbound : c.val ≤ 'z'.val := UInt32.le_trans hhigh (by decide)
      have hlower : c.isLower = true :=
        Bool.and_eq_true_iff.2 ⟨decide_eq_true hlow, decide_eq_true hbound⟩
      exact Bool.or_eq_true_iff.2 (.inl (Bool.or_eq_true_iff.2 (.inr hlower)))
    · have hbound : c.val ≤ 'Z'.val := UInt32.le_trans hhigh (by decide)
      have hupper : c.isUpper = true := decide_eq_true ⟨hlow, hbound⟩
      exact Bool.or_eq_true_iff.2 (.inl (Bool.or_eq_true_iff.2 (.inl hupper)))
  simp [isIdentChar, halphanum]

theorem isIdentChar_backslash : isIdentChar '\\' = false := by decide

theorem ne_backslash_of_isIdentChar {c : Char} (h : isIdentChar c = true) : c ≠ '\\' := by
  rintro rfl
  exact absurd h (by decide)

/-! ## The length of an escape -/

theorem terminatorLength_cons (c : Char) (rest : Text) :
    terminatorLength (c :: rest) =
      if c = '\r' ∧ rest.head? = some '\n' then 2 else if isTerminator c then 1 else 0 := by
  by_cases h : c = '\r' ∧ rest.head? = some '\n'
  · obtain ⟨rfl, hhead⟩ := h
    obtain ⟨tail, rfl⟩ := List.head?_eq_some_iff.1 hhead
    rfl
  · rw [if_neg h, terminatorLength]
    · rfl
    · rintro tail rfl rfl
      exact h ⟨rfl, rfl⟩

/-- The hexadecimal digits of the escape whose backslash stands in front of the text. -/
def hexRun (text : Text) : Text :=
  (text.take 6).takeWhile isHexDigit

theorem escapeLength_eq (text : Text) :
    escapeLength text =
      if hexRun text = [] then 1
      else (hexRun text).length + terminatorLength (text.drop (hexRun text).length) := by
  unfold escapeLength
  rw [← hexRun]
  split
  · next h => rw [if_pos (List.length_eq_zero_iff.1 h)]
  · next h => rw [if_neg fun hnil => h (by rw [hnil]; rfl)]

theorem hexRun_isPrefix (text : Text) : hexRun text <+: text :=
  (List.takeWhile_prefix _).trans (List.take_prefix 6 text)

/-- Digits are all of a run if they are six or no digit follows. -/
theorem hexRun_append {digits rest : Text} (hdigits : ∀ c ∈ digits, isHexDigit c = true)
    (hlength : digits.length ≤ 6)
    (hrest : digits.length = 6 ∨ ∀ c ∈ rest.head?, isHexDigit c = false) :
    hexRun (digits ++ rest) = digits := by
  unfold hexRun
  rw [List.take_append, List.take_of_length_le hlength, List.takeWhile_append_of_pos hdigits]
  rcases hrest with hsix | hrest
  · simp [hsix]
  · cases rest with
    | nil => simp
    | cons c rest =>
      have hc := hrest c rfl
      cases 6 - digits.length <;> simp [hc]

/-- A run of fewer than six digits ends where no digit follows. -/
theorem head?_of_hexRun_append {digits rest : Text} (h : hexRun (digits ++ rest) = digits)
    (hlength : digits.length < 6) : ∀ c ∈ rest.head?, isHexDigit c = false := by
  intro c hc
  obtain ⟨tail, rfl⟩ := List.head?_eq_some_iff.1 hc
  by_contra hdigit
  rw [Bool.not_eq_false] at hdigit
  have hdigits : ∀ d ∈ digits ++ [c], isHexDigit d = true := by
    intro d hd
    rcases List.mem_append.1 hd with hd | hd
    · rw [← h] at hd
      exact List.mem_takeWhile_imp hd
    · exact List.mem_singleton.1 hd ▸ hdigit
  have hlonger : digits ++ [c] <+: hexRun (digits ++ c :: tail) := by
    have htake :
        (digits ++ c :: tail).take 6 = (digits ++ [c]) ++ tail.take (5 - digits.length) := by
      rw [List.take_append, List.take_of_length_le (by omega),
        show 6 - digits.length = 5 - digits.length + 1 by omega, List.take_succ_cons,
        List.append_cons]
    rw [hexRun, htake, List.takeWhile_append_of_pos hdigits]
    exact List.prefix_append _ _
  have hle := hlonger.length_le
  rw [h, List.length_append, List.length_singleton] at hle
  omega

theorem hexRun_cons_eq_nil_iff {c : Char} {rest : Text} :
    hexRun (c :: rest) = [] ↔ isHexDigit c = false := by
  rw [hexRun, List.take_succ_cons, List.takeWhile_cons]
  cases isHexDigit c <;> simp

theorem terminatorLength_eq_zero_iff {text : Text} :
    terminatorLength text = 0 ↔ ∀ c ∈ text.head?, isTerminator c = false := by
  cases text with
  | nil => simp [terminatorLength]
  | cons c rest =>
    rw [terminatorLength_cons]
    split
    · next hbreak =>
      obtain ⟨rfl, -⟩ := hbreak
      simp [isTerminator]
    · cases hc : isTerminator c <;> simp [hc]

/-- Where a terminator ends depends on the first character behind it alone. -/
theorem terminatorLength_congr {blank tail other : Text}
    (h : terminatorLength (blank ++ tail) = blank.length)
    (hother : other.head? = tail.head? ∨ ∀ c ∈ other.head?, isTerminator c = false) :
    terminatorLength (blank ++ other) = blank.length := by
  match blank with
  | [] =>
    refine terminatorLength_eq_zero_iff.2 ?_
    rcases hother with hhead | hhead
    · rw [List.nil_append, hhead]
      exact terminatorLength_eq_zero_iff.1 h
    · exact hhead
  | [c] =>
    rw [List.singleton_append, terminatorLength_cons] at h ⊢
    have hnot : ¬(c = '\r' ∧ other.head? = some '\n') := by
      rintro ⟨rfl, hfeed⟩
      rcases hother with hhead | hhead
      · rw [if_pos ⟨rfl, hhead ▸ hfeed⟩] at h
        simp at h
      · exact absurd (hhead '\n' hfeed) (by decide)
    rw [if_neg hnot]
    split at h
    · simp at h
    · exact h
  | c :: d :: blank =>
    rw [List.cons_append, terminatorLength_cons] at h ⊢
    exact h

/-- An escape is one character that is no hexadecimal digit, or a run of digits with a
terminator. -/
theorem escapeLength_append_eq_length_iff {body tail : Text} (hbody : body ≠ []) :
    escapeLength (body ++ tail) = body.length ↔
      (∃ c, body = [c] ∧ isHexDigit c = false) ∨
      ∃ digits blank, body = digits ++ blank ∧ digits ≠ [] ∧
        hexRun (digits ++ (blank ++ tail)) = digits ∧
        terminatorLength (blank ++ tail) = blank.length := by
  rw [escapeLength_eq]
  constructor
  · intro h
    split at h
    · next hrun =>
      obtain ⟨c, rfl⟩ := List.length_eq_one_iff.1 h.symm
      rw [List.singleton_append, hexRun_cons_eq_nil_iff] at hrun
      exact .inl ⟨c, rfl, hrun⟩
    · next hrun =>
      have hle : (hexRun (body ++ tail)).length ≤ body.length := by omega
      obtain ⟨blank, hblank⟩ := List.prefix_of_prefix_length_le (hexRun_isPrefix _)
        (List.prefix_append body tail) hle
      generalize hdigits : hexRun (body ++ tail) = digits at h hrun hle hblank
      subst hblank
      rw [List.append_assoc] at hdigits
      rw [List.append_assoc, List.drop_left, List.length_append] at h
      exact .inr ⟨digits, blank, rfl, hrun, hdigits, by omega⟩
  · rintro (⟨c, rfl, hc⟩ | ⟨digits, blank, rfl, hdigits, hrun, hblank⟩)
    · rw [List.singleton_append, if_pos (hexRun_cons_eq_nil_iff.2 hc)]
      rfl
    · rw [List.append_assoc, hrun, if_neg hdigits, List.drop_left, hblank, List.length_append]

/-- Where a run of digits ends depends on the first character behind it alone. -/
theorem hexRun_congr {digits tail other : Text} (h : hexRun (digits ++ tail) = digits)
    (hother : other.head? = tail.head? ∨ ∀ c ∈ other.head?, isHexDigit c = false) :
    hexRun (digits ++ other) = digits := by
  have hdigits : ∀ c ∈ digits, isHexDigit c = true := by
    intro c hc
    rw [← h] at hc
    exact List.mem_takeWhile_imp hc
  have hlength : digits.length ≤ 6 := by
    rw [← h]
    exact Nat.le_trans (List.takeWhile_prefix _).length_le (List.length_take_le 6 _)
  refine hexRun_append hdigits hlength ?_
  by_cases hfull : digits.length = 6
  · exact .inl hfull
  · refine .inr fun c hc => ?_
    rcases hother with hhead | hhead
    · exact head?_of_hexRun_append h (by omega) c (hhead ▸ hc)
    · exact hhead c hc

/-- Where an escape ends depends on the first character behind it alone. -/
theorem escapeLength_congr {body tail other : Text} (hbody : body ≠ [])
    (h : escapeLength (body ++ tail) = body.length)
    (hother : other.head? = tail.head? ∨
      ∀ c ∈ other.head?, isHexDigit c = false ∧ isTerminator c = false) :
    escapeLength (body ++ other) = body.length := by
  rw [escapeLength_append_eq_length_iff hbody] at h ⊢
  refine h.imp id ?_
  rintro ⟨digits, blank, rfl, hdigits, hrun, hblank⟩
  refine ⟨digits, blank, rfl, hdigits, hexRun_congr hrun ?_, terminatorLength_congr hblank ?_⟩
  · cases blank with
    | nil => exact hother.imp id fun hhead c hc => (hhead c hc).1
    | cons c blank => exact .inl rfl
  · exact hother.imp id fun hhead c hc => (hhead c hc).2

theorem isTerminator_of_mem {blank tail : Text}
    (h : terminatorLength (blank ++ tail) = blank.length) :
    ∀ c ∈ blank, isTerminator c = true := by
  cases blank with
  | nil => simp
  | cons c blank =>
    rw [List.cons_append, terminatorLength_cons, List.length_cons] at h
    split at h
    · next hbreak =>
      obtain ⟨rfl, hfeed⟩ := hbreak
      obtain ⟨d, rfl⟩ := List.length_eq_one_iff.1 (show blank.length = 1 by omega)
      obtain rfl := Option.some.inj hfeed
      exact List.all_eq_true.1 (by decide)
    · split at h
      · next hc =>
        obtain rfl := List.length_eq_zero_iff.1 (show blank.length = 0 by omega)
        simpa using hc
      · omega

/-- Behind its first character, an escape has only hexadecimal digits and a terminator. -/
theorem forall_mem_tail_of_escapeLength_eq {body tail : Text} (hbody : body ≠ [])
    (h : escapeLength (body ++ tail) = body.length) :
    ∀ c ∈ body.tail, isHexDigit c = true ∨ isTerminator c = true := by
  intro c hc
  rcases (escapeLength_append_eq_length_iff hbody).1 h with
    ⟨d, rfl, -⟩ | ⟨digits, blank, rfl, -, hrun, hblank⟩
  · simp at hc
  · rcases List.mem_append.1 (List.mem_of_mem_tail hc) with hmem | hmem
    · rw [← hrun] at hmem
      exact .inl (List.mem_takeWhile_imp hmem)
    · exact .inr (isTerminator_of_mem hblank c hmem)

theorem terminatorLength_le (text : Text) : terminatorLength text ≤ text.length := by
  cases text with
  | nil => exact Nat.le_refl 0
  | cons c rest =>
    rw [terminatorLength_cons]
    split
    · next h =>
      obtain ⟨tail, rfl⟩ := List.head?_eq_some_iff.1 h.2
      simp
    · split <;> simp

theorem escapeLength_pos (text : Text) : 0 < escapeLength text := by
  rw [escapeLength_eq]
  split
  · exact Nat.one_pos
  · next h =>
    have := List.length_pos_iff.2 h
    omega

theorem escapeLength_le {text : Text} (h : text ≠ []) : escapeLength text ≤ text.length := by
  rw [escapeLength_eq]
  split
  · exact List.length_pos_iff.2 h
  · have hrun := (hexRun_isPrefix text).length_le
    have hterminator := terminatorLength_le (text.drop (hexRun text).length)
    rw [List.length_drop] at hterminator
    omega

/-! ## Names in front of a rest -/

/-- In front of `rest`, the name ends where it is said to: it is made of identifier characters and
escapes, no escape of it takes in a character of `rest`, and `rest` does not go on with it. -/
inductive Ends : Text → Text → Prop where
  | nil {rest : Text} : span rest = ([], rest) → Ends [] rest
  | char {c : Char} {name rest : Text} :
    isIdentChar c = true → Ends name rest → Ends (c :: name) rest
  | escape {body name rest : Text} :
    body ≠ [] → escapeLength (body ++ (name ++ rest)) = body.length → Ends name rest →
    Ends ('\\' :: (body ++ name)) rest

theorem ends_span (text : Text) : Ends (span text).1 (span text).2 := by
  fun_induction span text with
  | case1 => exact .nil (by rw [span])
  | case2 c hchar => exact .char hchar (.nil (by rw [span]))
  | case3 c hchar => exact .nil (by rw [span, if_neg hchar])
  | case4 next rest size name after hspan ih =>
    have hle : size ≤ (next :: rest).length := escapeLength_le (by simp)
    have hlength : ((next :: rest).take size).length = size := by
      rw [List.length_take, Nat.min_eq_left hle]
    have htext : (next :: rest).take size ++ (name ++ after) = next :: rest := by
      have happend := span_append ((next :: rest).drop size)
      rw [hspan] at happend
      rw [happend, List.take_append_drop]
    rw [hspan] at ih
    refine .escape ?_ ?_ ih
    · intro hnil
      have hpos := escapeLength_pos (next :: rest)
      rw [hnil] at hlength
      exact absurd hlength (Nat.ne_of_lt hpos)
    · rw [htext, hlength]
  | case5 c next rest hslash hchar name after hspan ih =>
    rw [hspan] at ih
    exact .char hchar ih
  | case6 c next rest hslash hchar => exact .nil (by rw [span, if_neg hslash, if_neg hchar])

theorem span_backslash {text : Text} (h : text ≠ []) :
    span ('\\' :: text) =
      ('\\' :: (text.take (escapeLength text) ++ (span (text.drop (escapeLength text))).1),
        (span (text.drop (escapeLength text))).2) := by
  cases text with
  | nil => exact absurd rfl h
  | cons next rest => rw [span, if_pos rfl]

theorem Ends.span_append {name rest : Text} (h : Ends name rest) :
    span (name ++ rest) = (name, rest) := by
  induction h with
  | nil h => exact h
  | @char c name rest hchar hends ih =>
    cases hrest : name ++ rest with
    | nil =>
      obtain ⟨rfl, rfl⟩ := List.append_eq_nil_iff.1 hrest
      rw [List.append_nil, span, if_pos hchar]
    | cons next tail =>
      rw [List.cons_append, hrest, span, if_neg (ne_backslash_of_isIdentChar hchar), if_pos hchar,
        ← hrest, ih]
  | @escape body name rest hbody hlength hends ih =>
    have hne : body ++ (name ++ rest) ≠ [] := by simp [hbody]
    rw [List.cons_append, List.append_assoc, span_backslash hne, hlength, List.take_left,
      List.drop_left, ih]

theorem Ends.span_rest {name rest : Text} (h : Ends name rest) : span rest = ([], rest) := by
  induction h with
  | nil h => exact h
  | char _ _ ih => exact ih
  | escape _ _ _ ih => exact ih

/-- A name is read in front of a rest exactly if it ends there. -/
theorem read?_append_eq_some_iff {name rest : Text} :
    read? (name ++ rest) = some (name, rest) ↔ name ≠ [] ∧ Ends name rest := by
  constructor
  · intro h
    refine ⟨ne_nil_of_read?_eq_some h, ?_⟩
    have hends := ends_span (name ++ rest)
    unfold read? at h
    split at h
    · simp at h
    · next hspan =>
      obtain ⟨rfl, rfl⟩ := Prod.mk.inj (Option.some.inj h)
      rwa [hspan] at hends
  · rintro ⟨hname, hends⟩
    unfold read?
    rw [hends.span_append]
    split
    · next heq => exact absurd (Prod.mk.inj heq).1 hname
    · next heq => rw [heq]

theorem ends_of_read?_eq_some {text name rest : Text} (h : read? text = some (name, rest)) :
    Ends name rest := by
  rw [append_of_read?_eq_some h] at h
  exact (read?_append_eq_some_iff.1 h).2

/-- What ends an identifier: the end of the text, a backslash that escapes nothing, or a character
that is no part of an identifier. -/
theorem span_eq_nil_iff {rest : Text} :
    span rest = ([], rest) ↔
      rest = [] ∨ rest = ['\\'] ∨ ∃ c ∈ rest.head?, c ≠ '\\' ∧ isIdentChar c = false := by
  match rest with
  | [] => simp [span]
  | [c] =>
    rw [span]
    by_cases hslash : c = '\\'
    · subst hslash
      simp [isIdentChar_backslash]
    · cases h : isIdentChar c <;> simp [h, hslash]
  | c :: next :: tail =>
    rw [span]
    by_cases hslash : c = '\\'
    · simp [hslash]
    · cases h : isIdentChar c <;> simp [h, hslash]

theorem isIdentChar_eq_false_of_isDelimiter {c : Char} (h : isDelimiter c = true) :
    isIdentChar c = false ∧ c ≠ '\\' ∧ isTerminator c = false := by
  simpa [isDelimiter, and_assoc] using h

/-- The text `other` ends every name that `rest` ends: it is empty, or begins with a character that
ends all names, or begins as `rest` does. -/
def Alike (rest other : Text) : Prop :=
  (∀ c ∈ other.head?, isDelimiter c = true) ∨ (other.head? = rest.head? ∧ rest ≠ ['\\'])

theorem Alike.span_eq_nil {rest other : Text} (h : Alike rest other)
    (hrest : span rest = ([], rest)) : span other = ([], other) := by
  rw [span_eq_nil_iff] at hrest ⊢
  cases other with
  | nil => exact .inl rfl
  | cons c other =>
    refine .inr (.inr ⟨c, rfl, ?_⟩)
    rcases h with h | ⟨hhead, hne⟩
    · have hc := isIdentChar_eq_false_of_isDelimiter (h c rfl)
      exact ⟨hc.2.1, hc.1⟩
    · rcases hrest with rfl | rfl | ⟨d, hd, hbreak⟩
      · simp at hhead
      · exact absurd rfl hne
      · obtain rfl : c = d := Option.some.inj (hhead.trans hd)
        exact hbreak

/-- A name that ends in front of `rest` also ends in front of a text that is alike. -/
theorem Ends.of_alike {name rest other : Text} (h : Ends name rest) (halike : Alike rest other) :
    Ends name other := by
  induction h with
  | nil hrest => exact .nil (halike.span_eq_nil hrest)
  | char hchar _ ih => exact .char hchar (ih halike)
  | @escape body name rest hbody hlength _ ih =>
    refine .escape hbody (escapeLength_congr hbody hlength ?_) (ih halike)
    -- Only an escape at the end of the name meets the rest.
    cases name with
    | cons c name => exact .inl rfl
    | nil =>
      rcases halike with hdelimiter | ⟨hhead, -⟩
      · refine .inr fun c hc => ?_
        have hfacts := isIdentChar_eq_false_of_isDelimiter (hdelimiter c hc)
        refine ⟨?_, hfacts.2.2⟩
        by_contra hdigit
        rw [Bool.not_eq_false] at hdigit
        rw [isIdentChar_of_isHexDigit hdigit] at hfacts
        exact absurd hfacts.1 (by decide)
      · exact .inl hhead

/-! ## Names by themselves -/

/-- A text that is read as a name in front of some other text. -/
def IsName (name : Text) : Prop :=
  name ≠ [] ∧ ∃ rest, Ends name rest

theorem isName_of_read?_eq_some {text name rest : Text} (h : read? text = some (name, rest)) :
    IsName name :=
  ⟨ne_nil_of_read?_eq_some h, rest, ends_of_read?_eq_some h⟩

/-- A name is read in front of a character that ends every name. -/
theorem IsName.read?_append {name rest : Text} (h : IsName name)
    (hrest : ∀ c ∈ rest.head?, isDelimiter c = true) :
    read? (name ++ rest) = some (name, rest) := by
  obtain ⟨hname, _, hends⟩ := h
  exact read?_append_eq_some_iff.2 ⟨hname, hends.of_alike (.inl hrest)⟩

/-- A name begins with an identifier character or with an escape. -/
theorem IsName.exists_cons {name : Text} (h : IsName name) :
    ∃ c rest, name = c :: rest ∧ (isIdentChar c = true ∨ c = '\\' ∧ rest ≠ []) := by
  obtain ⟨hname, rest, hends⟩ := h
  cases hends with
  | nil => exact absurd rfl hname
  | char hchar _ => exact ⟨_, _, rfl, .inl hchar⟩
  | escape hbody _ _ => exact ⟨_, _, rfl, .inr ⟨rfl, by simp [hbody]⟩⟩

/-! ## New names -/

/-- Identifier characters alone are a name in front of everything that ends names. -/
theorem ends_of_forall {name rest : Text} (hname : ∀ c ∈ name, isIdentChar c = true)
    (hrest : span rest = ([], rest)) : Ends name rest := by
  induction name with
  | nil => exact .nil hrest
  | cons c name ih =>
    rw [List.forall_mem_cons] at hname
    exact .char hname.1 (ih hname.2)

/-- A name goes on with identifier characters that do not belong to its last escape. -/
theorem Ends.append_suffix {name rest suffix : Text} (h : Ends name rest)
    (hsuffix : ∀ c ∈ suffix, isIdentChar c = true)
    (hhead : ∀ c ∈ suffix.head?, isHexDigit c = false ∧ isTerminator c = false)
    (hne : suffix ≠ []) : Ends (name ++ suffix) rest := by
  induction h with
  | nil hrest => exact ends_of_forall hsuffix hrest
  | char hchar _ ih => exact .char hchar ih
  | @escape body name rest hbody hlength _ ih =>
    rw [List.cons_append, List.append_assoc]
    refine .escape hbody (escapeLength_congr hbody hlength ?_) ih
    cases name with
    | cons c name => exact .inl rfl
    | nil =>
      obtain ⟨c, tail, rfl⟩ := List.exists_cons_of_ne_nil hne
      exact .inr hhead

end ScopedCss.Ident

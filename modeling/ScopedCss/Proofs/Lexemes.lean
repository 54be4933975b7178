import ScopedCss.Proofs.Scanning
import ScopedCss.Selector.Grammar

/-!
# The spelling of simple selectors

`Spelled text lexeme rest` lists how simple selectors are spelled in front of a rest, one rule for
each kind, and `Lexeme.read_eq_read_iff` says that reading a lexeme follows exactly these rules.
Proofs about lexemes go by cases on `Spelled` and do not look at the reader.

A simple selector begins with one of the characters of `isStart`; where none of these stands,
nothing is read (`Lexeme.read_eq_absent`).
-/

namespace ScopedCss.Selector

/-- The spellings of simple selectors, each with the text that follows it. -/
inductive Spelled : Text → Lexeme → Text → Prop where
  | typeName {name rest : Text} :
    Ident.read? (name ++ rest) = some (name, rest) →
    Spelled (name ++ rest) (.leaf (.typeName name)) rest
  | universal {rest : Text} : Spelled ('*' :: rest) (.leaf .universal) rest
  | nesting {rest : Text} : Spelled ('&' :: rest) (.leaf .nesting) rest
  | className {name rest : Text} :
    Ident.read? (name ++ rest) = some (name, rest) →
    Spelled ('.' :: (name ++ rest)) (.leaf (.className name)) rest
  | idName {name rest : Text} :
    Ident.read? (name ++ rest) = some (name, rest) →
    Spelled ('#' :: (name ++ rest)) (.leaf (.idName name)) rest
  | attr {content rest : Text} {condition : Attribute} :
    Scan.unnested [']'] (content ++ ']' :: rest) = .found ']' rest →
    Lexeme.attribute? content = .ok condition →
    Spelled ('[' :: (content ++ ']' :: rest)) (.leaf (.attr condition)) rest
  | pseudo {head : Pseudo} {rest : Text} :
    Ident.read? (head.name ++ rest) = some (head.name, rest) → rest.head? ≠ some '(' →
    Spelled (head.render ++ rest) (.leaf (.pseudo head)) rest
  | function {head : Pseudo} {argument rest : Text} :
    Ident.read? (head.name ++ '(' :: (argument ++ ')' :: rest)) =
      some (head.name, '(' :: (argument ++ ')' :: rest)) →
    Scan.parenthesized? (argument ++ ')' :: rest) = some (argument, rest) →
    (head.takesSelector = true → argument.isBlankText = true) →
    Spelled (head.render ++ '(' :: (argument ++ ')' :: rest)) (.leaf (.function head argument)) rest
  | query {head : Pseudo} {argument rest : Text} :
    Ident.read? (head.name ++ '(' :: (argument ++ ')' :: rest)) =
      some (head.name, '(' :: (argument ++ ')' :: rest)) →
    Scan.parenthesized? (argument ++ ')' :: rest) = some (argument, rest) →
    head.takesSelector = true → argument.isBlankText = false →
    Spelled (head.render ++ '(' :: (argument ++ ')' :: rest)) (.query head argument) rest

/-- A character that may begin a simple selector. -/
def isStart (c : Char) : Bool :=
  Ident.isIdentChar c || c == '\\' || c == '*' || c == '&' || c == '.' || c == '#' || c == '[' ||
    c == ':'

/-- The characters that begin a simple selector other than a type name. -/
def isMark (c : Char) : Bool :=
  c == '*' || c == '&' || c == '.' || c == '#' || c == '[' || c == ':'

/-- What a name begins with is no mark. -/
theorem isMark_eq_false_of_isName {name : Text} (h : Ident.IsName name) (rest : Text) :
    ∀ c ∈ (name ++ rest).head?, isStart c = true ∧ isMark c = false := by
  obtain ⟨c, tail, rfl, hc⟩ := h.exists_cons
  intro d hd
  obtain rfl : c = d := Option.some.inj hd
  rcases hc with hc | ⟨rfl, -⟩
  · refine ⟨by simp [isStart, hc], ?_⟩
    have hne : ∀ d, Ident.isIdentChar d = false → c ≠ d := by
      rintro d hd rfl
      exact absurd (hd.symm.trans hc) (by decide)
    simp only [isMark, Bool.or_eq_false_iff, beq_eq_false_iff_ne]
    refine ⟨⟨⟨⟨⟨?_, ?_⟩, ?_⟩, ?_⟩, ?_⟩, ?_⟩ <;> exact hne _ (by decide)
  · decide

namespace Lexeme

/-! ## Reading what is spelled -/

theorem read_eq_readName {text : Text} (h : ∀ c ∈ text.head?, isMark c = false) :
    read text = readName .typeName text := by
  rw [read]
  all_goals
    rintro rest rfl
    exact absurd (h _ rfl) (by decide)

theorem readName_eq_read_iff {make : Text → Selector} {text rest : Text} {lexeme : Lexeme} :
    readName make text = .read lexeme rest ↔
      ∃ name, Ident.read? text = some (name, rest) ∧ lexeme = .leaf (make name) := by
  unfold readName
  split
  · next h => simp [h]
  · next name after h =>
    simp only [h, Reply.read.injEq, Option.some.injEq, Prod.mk.injEq]
    constructor
    · rintro ⟨rfl, rfl⟩
      exact ⟨name, ⟨rfl, rfl⟩, rfl⟩
    · rintro ⟨_, ⟨rfl, rfl⟩, rfl⟩
      exact ⟨rfl, rfl⟩

/-- The colons of a pseudo are read before its name. -/
theorem read_pseudo {head : Pseudo} {rest : Text} (h : Ident.IsName head.name) :
    read (head.render ++ rest) = readPseudo head.kind (head.name ++ rest) := by
  have hmark := isMark_eq_false_of_isName h rest
  obtain ⟨kind, name⟩ := head
  cases kind with
  | pseudoElement => rfl
  | pseudoClass =>
    change read (':' :: (name ++ rest)) = _
    rw [read]
    intro tail htail
    exact absurd (hmark ':' (by rw [htail]; rfl)).2 (by decide)

theorem read_of_spelled {text rest : Text} {lexeme : Lexeme} (h : Spelled text lexeme rest) :
    read text = .read lexeme rest := by
  cases h with
  | typeName hname =>
    have hmark := isMark_eq_false_of_isName (Ident.isName_of_read?_eq_some hname) rest
    rw [read_eq_readName fun c hc => (hmark c hc).2]
    exact readName_eq_read_iff.2 ⟨_, hname, rfl⟩
  | universal => rfl
  | nesting => rfl
  | className hname => exact readName_eq_read_iff.2 ⟨_, hname, rfl⟩
  | idName hname => exact readName_eq_read_iff.2 ⟨_, hname, rfl⟩
  | attr hfound hcondition =>
    change readAttribute _ = _
    rw [readAttribute, hfound]
    simp only [Text.before_append, hcondition]
  | pseudo hname hgroup =>
    rw [read_pseudo (Ident.isName_of_read?_eq_some hname), readPseudo, hname]
    split
    · next heq => simp at heq
    · next heq =>
      obtain ⟨-, rfl⟩ := Prod.mk.inj (Option.some.inj heq)
      exact absurd rfl hgroup
    · next heq =>
      obtain ⟨rfl, rfl⟩ := Prod.mk.inj (Option.some.inj heq)
      rfl
  | function hname hgroup hplain =>
    rw [read_pseudo (Ident.isName_of_read?_eq_some hname), readPseudo, hname]
    simp only [hgroup]
    rw [if_neg]
    simpa using hplain
  | query hname hgroup htakes hblank =>
    rw [read_pseudo (Ident.isName_of_read?_eq_some hname), readPseudo, hname]
    simp [hgroup, htakes, hblank]

/-! ## Reading gives what is spelled -/

theorem spelled_of_readAttribute {body rest : Text} {lexeme : Lexeme}
    (h : readAttribute body = .read lexeme rest) : Spelled ('[' :: body) lexeme rest := by
  unfold readAttribute at h
  split at h
  · next stop after hfound =>
    obtain rfl : stop = ']' := by simpa using (Scan.scan_eq_found hfound).1
    have hbody := Scan.append_of_unnested_eq_found hfound
    split at h
    · next condition hcondition =>
      obtain ⟨rfl, rfl⟩ := Reply.read.inj h
      rw [← hbody] at hfound ⊢
      exact .attr hfound hcondition
    · simp at h
  · simp at h

theorem spelled_of_readPseudo {kind : PseudoKind} {text rest : Text} {lexeme : Lexeme}
    (h : readPseudo kind text = .read lexeme rest) :
    Spelled (Pseudo.render ⟨kind, text⟩) lexeme rest := by
  have happend : ∀ name behind : Text,
      Pseudo.render ⟨kind, name ++ behind⟩ = Pseudo.render ⟨kind, name⟩ ++ behind := by
    intro name behind
    cases kind <;> rfl
  unfold readPseudo at h
  split at h
  · simp at h
  · next name body hname =>
    obtain rfl := Ident.append_of_read?_eq_some hname
    split at h
    · simp at h
    · next argument after hgroup =>
      obtain rfl := Scan.append_of_parenthesized?_eq_some hgroup
      simp only at h
      rw [happend]
      split at h
      · next htakes =>
        obtain ⟨rfl, rfl⟩ := Reply.read.inj h
        simp only [Bool.and_eq_true, Bool.not_eq_true'] at htakes
        exact .query hname hgroup htakes.1 htakes.2
      · next hplain =>
        obtain ⟨rfl, rfl⟩ := Reply.read.inj h
        exact .function hname hgroup (by simpa using hplain)
  · next name after hopen hname =>
    obtain rfl := Ident.append_of_read?_eq_some hname
    obtain ⟨rfl, rfl⟩ := Reply.read.inj h
    rw [happend]
    refine .pseudo hname fun hhead => ?_
    obtain ⟨body, rfl⟩ := List.head?_eq_some_iff.1 hhead
    exact hopen body rfl

theorem spelled_of_read {text rest : Text} {lexeme : Lexeme} (h : read text = .read lexeme rest) :
    Spelled text lexeme rest := by
  unfold read at h
  split at h
  · obtain ⟨name, hname, rfl⟩ := readName_eq_read_iff.1 h
    obtain rfl := Ident.append_of_read?_eq_some hname
    exact .idName hname
  · obtain ⟨name, hname, rfl⟩ := readName_eq_read_iff.1 h
    obtain rfl := Ident.append_of_read?_eq_some hname
    exact .className hname
  · exact spelled_of_readPseudo h
  · exact spelled_of_readPseudo h
  · exact spelled_of_readAttribute h
  · obtain ⟨rfl, rfl⟩ := Reply.read.inj h
    exact .universal
  · obtain ⟨rfl, rfl⟩ := Reply.read.inj h
    exact .nesting
  · obtain ⟨name, hname, rfl⟩ := readName_eq_read_iff.1 h
    obtain rfl := Ident.append_of_read?_eq_some hname
    exact .typeName hname

/-- Reading a lexeme follows the rules of spelling. -/
theorem read_eq_read_iff {text rest : Text} {lexeme : Lexeme} :
    read text = .read lexeme rest ↔ Spelled text lexeme rest :=
  ⟨spelled_of_read, read_of_spelled⟩

/-- Nothing is read where no simple selector begins. -/
theorem read_eq_absent {text : Text} (h : ∀ c ∈ text.head?, isStart c = false) :
    read text = .absent := by
  have hmark : ∀ c ∈ text.head?, isMark c = false := by
    intro c hc
    have hstart := h c hc
    simp only [isStart, isMark, Bool.or_eq_false_iff] at hstart ⊢
    simp [hstart]
  rw [read_eq_readName hmark, readName]
  split
  · rfl
  · next name rest hname =>
    obtain rfl := Ident.append_of_read?_eq_some hname
    obtain ⟨c, tail, rfl, -⟩ := (Ident.isName_of_read?_eq_some hname).exists_cons
    have hstart := isMark_eq_false_of_isName (Ident.isName_of_read?_eq_some hname) rest c rfl
    exact absurd (hstart.1.symm.trans (h c rfl)) (by decide)

end Lexeme

/-! ## Simple selectors with their arguments -/

/-- A simple selector is a lexeme whose argument, if it is a selector, has been read. -/
theorem Grammar.simple_eq_read_iff {nested : Reader} {text rest : Text} {tree : Selector} :
    simple nested text = .read tree rest ↔
      Spelled text (.leaf tree) rest ∨
      ∃ head argument inner, tree = .query head argument inner ∧
        Spelled text (.query head argument) rest ∧
        nested (argumentMode head) argument = .ok inner := by
  simp only [← Lexeme.read_eq_read_iff, simple]
  split
  · next hlexeme => simp [hlexeme]
  · next hlexeme => simp [hlexeme]
  · next leaf after hlexeme => simp [hlexeme]
  · next head argument after hlexeme =>
    simp only [hlexeme, Reply.read.injEq, Lexeme.query.injEq, reduceCtorEq, false_and, false_or]
    constructor
    · intro h
      split at h
      · next inner hinner =>
        obtain ⟨rfl, rfl⟩ := Reply.read.inj h
        exact ⟨head, argument, inner, rfl, ⟨⟨rfl, rfl⟩, rfl⟩, hinner⟩
      · simp at h
    · rintro ⟨_, _, inner, rfl, ⟨⟨rfl, rfl⟩, rfl⟩, hinner⟩
      rw [hinner]

theorem Grammar.simple_eq_absent {nested : Reader} {text : Text}
    (h : ∀ c ∈ text.head?, isStart c = false) : simple nested text = .absent := by
  rw [simple, Lexeme.read_eq_absent h]

end ScopedCss.Selector

import ScopedCss.Selector.Basic
import ScopedCss.Selector.Error
import ScopedCss.Text.Blank
import ScopedCss.Text.Ident
import ScopedCss.Text.Scan

/-!
# Simple selectors as lexemes

A lexeme is one simple selector whose argument, if it is to be read as a selector, is still text.
Reading a lexeme is therefore not recursive.
-/

namespace ScopedCss.Selector

/-- A simple selector before its argument is read. -/
inductive Lexeme where
  /-- A simple selector that is complete. -/
  | leaf (selector : Selector)
  /-- A pseudo with an argument that is to be read as a selector. -/
  | query (head : Pseudo) (argument : Text)

namespace Lexeme

/-- The characters that may stand in front of the `=` of an attribute test. -/
def isOperatorMark (c : Char) : Bool :=
  c == '~' || c == '|' || c == '^' || c == '$' || c == '*'

/-- The operator mark that ends the text, if one does. -/
def operatorMark (front : Text) : Text :=
  match front.getLast? with
  | some c => if isOperatorMark c then [c] else []
  | none => []

/-- The attribute selector with the given text between its brackets.  The first `=` belongs to the
operator. -/
def attribute? (content : Text) : Except Cause Attribute :=
  match content.splitFirst? '=' with
  | none =>
    let name := content.trim
    if name.isEmpty then .error .expectedAttributeName else .ok ⟨name, none⟩
  | some (front, back) =>
    let mark := operatorMark front
    let name := Text.trim (front.take (front.length - mark.length))
    let value := back.trim
    if name.isEmpty || value.isEmpty then .error .malformedAttribute
    else .ok ⟨name, some ⟨mark ++ ['='], value⟩⟩

/-- Reads an attribute selector whose `[` has been passed. -/
def readAttribute (body : Text) : Reply Lexeme :=
  match Scan.unnested [']'] body with
  | .found stop after =>
    match attribute? (body.before (stop :: after)) with
    | .ok condition => .read (.leaf (.attr condition)) after
    | .error cause => .failed (.here cause body)
  | _ => .failed (.here .unterminatedAttribute ('[' :: body))

/-- Reads a pseudo whose colons have been passed. -/
def readPseudo (kind : PseudoKind) (text : Text) : Reply Lexeme :=
  match Ident.read? text with
  | none => .absent
  | some (name, '(' :: body) =>
    match Scan.parenthesized? body with
    | none => .failed (.here .unbalancedParentheses ('(' :: body))
    | some (argument, rest) =>
      let head : Pseudo := ⟨kind, name⟩
      if head.takesSelector && !argument.isBlankText then .read (.query head argument) rest
      else .read (.leaf (.function head argument)) rest
  | some (name, rest) => .read (.leaf (.pseudo ⟨kind, name⟩)) rest

/-- Reads a name and makes a simple selector of it. -/
def readName (make : Text → Selector) (text : Text) : Reply Lexeme :=
  match Ident.read? text with
  | none => .absent
  | some (name, rest) => .read (.leaf (make name)) rest

/-- Reads the simple selector at the start of the text. -/
def read : Text → Reply Lexeme
  | '#' :: rest => readName .idName rest
  | '.' :: rest => readName .className rest
  | ':' :: ':' :: rest => readPseudo .pseudoElement rest
  | ':' :: rest => readPseudo .pseudoClass rest
  | '[' :: body => readAttribute body
  | '*' :: rest => .read (.leaf .universal) rest
  | '&' :: rest => .read (.leaf .nesting) rest
  | text => readName .typeName text

/-! ## Reading a lexeme uses up text -/

theorem length_lt_of_readAttribute_eq_read {body rest : Text} {lexeme : Lexeme}
    (h : readAttribute body = .read lexeme rest) : rest.length < body.length := by
  simp only [readAttribute] at h
  split at h
  · next stop after hfound =>
    split at h
    · simp only [Reply.read.injEq] at h
      have hsplit := congrArg List.length (Scan.append_of_unnested_eq_found hfound)
      rw [List.length_append, List.length_cons, h.2] at hsplit
      omega
    · simp at h
  · simp at h

theorem length_lt_of_readPseudo_eq_read {kind : PseudoKind} {text rest : Text} {lexeme : Lexeme}
    (h : readPseudo kind text = .read lexeme rest) : rest.length < text.length := by
  simp only [readPseudo] at h
  split at h
  · simp at h
  · next name body hident =>
    have hlt := Ident.length_lt_of_read?_eq_some hident
    split at h
    · simp at h
    · next argument after hgroup =>
      have hsplit := congrArg List.length (Scan.append_of_parenthesized?_eq_some hgroup)
      rw [List.length_append, List.length_cons] at hsplit
      rw [List.length_cons] at hlt
      split at h <;>
      · simp only [Reply.read.injEq] at h
        rw [← h.2]
        omega
  · next name after _ hident =>
    simp only [Reply.read.injEq] at h
    exact h.2 ▸ Ident.length_lt_of_read?_eq_some hident

theorem length_lt_of_readName_eq_read {make : Text → Selector} {text rest : Text}
    {lexeme : Lexeme} (h : readName make text = .read lexeme rest) :
    rest.length < text.length := by
  simp only [readName] at h
  split at h
  · simp at h
  · next name after hident =>
    simp only [Reply.read.injEq] at h
    exact h.2 ▸ Ident.length_lt_of_read?_eq_some hident

/-- The rest behind a lexeme is shorter than the text. -/
theorem length_lt_of_read_eq_read {text rest : Text} {lexeme : Lexeme}
    (h : read text = .read lexeme rest) : rest.length < text.length := by
  unfold read at h
  split at h
  · exact Nat.lt_succ_of_lt (length_lt_of_readName_eq_read h)
  · exact Nat.lt_succ_of_lt (length_lt_of_readName_eq_read h)
  · exact Nat.lt_succ_of_lt (Nat.lt_succ_of_lt (length_lt_of_readPseudo_eq_read h))
  · exact Nat.lt_succ_of_lt (length_lt_of_readPseudo_eq_read h)
  · exact Nat.lt_succ_of_lt (length_lt_of_readAttribute_eq_read h)
  · simp only [Reply.read.injEq] at h
    simp [h.2]
  · simp only [Reply.read.injEq] at h
    simp [h.2]
  · exact length_lt_of_readName_eq_read h

/-- The argument of a pseudo is shorter than the text that the pseudo was read from. -/
theorem argument_length_lt_of_read_eq_read {text rest argument : Text} {head : Pseudo}
    (h : read text = .read (.query head argument) rest) : argument.length < text.length := by
  have hpseudo : ∀ {kind : PseudoKind} {body : Text},
      readPseudo kind body = .read (.query head argument) rest →
        argument.length < body.length := by
    intro kind body h
    simp only [readPseudo] at h
    split at h
    · simp at h
    · next name inside hident =>
      have hlt := Ident.length_lt_of_read?_eq_some hident
      split at h
      · simp at h
      · next content after hgroup =>
        have hsplit := congrArg List.length (Scan.append_of_parenthesized?_eq_some hgroup)
        rw [List.length_append, List.length_cons] at hsplit
        rw [List.length_cons] at hlt
        split at h
        · simp only [Reply.read.injEq, Lexeme.query.injEq] at h
          rw [← h.1.2]
          omega
        · simp at h
    · simp at h
  unfold read at h
  split at h
  · simp only [readName] at h
    split at h <;> simp at h
  · simp only [readName] at h
    split at h <;> simp at h
  · exact Nat.lt_succ_of_lt (Nat.lt_succ_of_lt (hpseudo h))
  · exact Nat.lt_succ_of_lt (hpseudo h)
  · simp only [readAttribute] at h
    split at h
    · split at h <;> simp at h
    · simp at h
  · simp at h
  · simp at h
  · simp only [readName] at h
    split at h <;> simp at h

end Lexeme

end ScopedCss.Selector

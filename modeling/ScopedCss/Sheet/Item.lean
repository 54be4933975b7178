import ScopedCss.Sheet.Error
import ScopedCss.Text.Blank
import ScopedCss.Text.Ident
import ScopedCss.Text.Scan

/-!
# Items of a style sheet

An item is what stands between two places where a node may begin: the head of a block, a closing
brace, or a whole node without a block.  Items are flat, so reading one is not recursive, and the
tree is put together from them afterwards.
-/

namespace ScopedCss.Sheet

/-- An item. -/
inductive Item where
  | openRule (selector : Text)
  | openBlock (name params : Text)
  | close
  | semicolon
  | statement (name params : Text)
  | declaration (property value : Text) (important : Bool)
  | comment (content : Text)
deriving Repr, DecidableEq

namespace Item

/-- How the text of a construct ends. -/
inductive Ending where
  /-- With a `{`, which is passed. -/
  | brace (body : Text)
  /-- With a `;`, which is passed. -/
  | semicolon (rest : Text)
  /-- In front of the `}` of the block around it, or at the end of the text. -/
  | outer (rest : Text)
deriving Repr, DecidableEq

/-- Splits the text of a construct from its ending. -/
def extent (text : Text) : Except Failure (Text × Ending) :=
  match Scan.unnested ['{', ';', '}'] text with
  | .found stop after =>
    let front := text.before (stop :: after)
    if stop = '{' then .ok (front, .brace after)
    else if stop = ';' then .ok (front, .semicolon after)
    else .ok (front, .outer (stop :: after))
  | .absent => .ok (text, .outer [])
  | .unbalanced rest => .error ⟨.unbalanced, rest⟩

/-- Splits `!important` off a value.  Only the last `!` counts. -/
def splitImportant (value : Text) : Text × Bool :=
  match value.splitLast? '!' with
  | some (front, back) =>
    if Text.eqIgnoringCase (Text.trim back) "important".toList then (Text.trimEnd front, true)
    else (value, false)
  | none => (value, false)

/-- The declaration with the given text. -/
def declaration? (text : Text) : Except Cause Item :=
  match text.splitFirst? ':' with
  | none => .error .expectedColon
  | some (front, back) =>
    let property := Text.trim front
    if Ident.isIdent property then
      let (value, important) := splitImportant (Text.trim back)
      .ok (.declaration property value important)
    else .error (.invalidProperty property)

/-- Reads a comment whose `/*` has been passed. -/
def readComment (body : Text) : Except Failure (Item × Text) :=
  match Scan.afterComment? body with
  | some rest => .ok (.comment (body.before ('*' :: '/' :: rest)), rest)
  | none => .error ⟨.unterminatedComment, '/' :: '*' :: body⟩

/-- Reads an at-rule, or its head, whose `@` has been passed. -/
def readAtRule (text : Text) : Except Failure (Item × Text) :=
  match Ident.read? text with
  | none => .error ⟨.expectedAtName, '@' :: text⟩
  | some (name, after) =>
    match extent after with
    | .ok (params, .brace body) => .ok (.openBlock name params.trim, body)
    | .ok (params, .semicolon rest) => .ok (.statement name params.trim, rest)
    | .ok (params, .outer rest) => .ok (.statement name params.trim, rest)
    | .error failure => .error failure

/-- Makes a declaration of `front` and goes on behind it. -/
def finishDeclaration (text front rest : Text) : Except Failure (Item × Text) :=
  match declaration? front with
  | .ok item => .ok (item, rest)
  | .error cause => .error ⟨cause, text⟩

/-- Reads the head of a style rule or, inside a block, a declaration. -/
def readConstruct (nested : Bool) (text : Text) : Except Failure (Item × Text) :=
  match extent text with
  | .error failure => .error failure
  | .ok (front, .brace body) =>
    if front.trim.isEmpty then .error ⟨.expectedSelector, text⟩
    else .ok (.openRule front.trim, body)
  | .ok (front, .semicolon rest) =>
    if nested then finishDeclaration text front rest else .error ⟨.expectedBlock, text⟩
  | .ok (front, .outer rest) =>
    if nested then finishDeclaration text front rest else .error ⟨.expectedBlock, text⟩

/-- Reads the item at the start of a text that does not begin with a space.  `nested` says that
the item stands inside a block. -/
def read (nested : Bool) : Text → Except Failure (Item × Text)
  | '}' :: rest => if nested then .ok (.close, rest) else .error ⟨.unexpectedClose, '}' :: rest⟩
  | ';' :: rest => .ok (.semicolon, rest)
  | '/' :: '*' :: body => readComment body
  | '@' :: text => readAtRule text
  | text => readConstruct nested text

/-! ## Reading an item uses up text -/

theorem length_of_extent_eq_brace {text front body : Text}
    (h : extent text = .ok (front, .brace body)) : body.length < text.length := by
  simp only [extent] at h
  split at h
  · next stop after hfound =>
    have hle := (Scan.scan_eq_found hfound).2.length_le
    rw [List.length_cons] at hle
    split at h
    · simp only [Except.ok.injEq, Prod.mk.injEq, Ending.brace.injEq] at h
      rw [← h.2]
      omega
    · split at h <;> simp at h
  · simp at h
  · simp at h

theorem length_of_extent_eq_semicolon {text front rest : Text}
    (h : extent text = .ok (front, .semicolon rest)) : rest.length < text.length := by
  simp only [extent] at h
  split at h
  · next stop after hfound =>
    have hle := (Scan.scan_eq_found hfound).2.length_le
    rw [List.length_cons] at hle
    split at h
    · simp at h
    · split at h
      · simp only [Except.ok.injEq, Prod.mk.injEq, Ending.semicolon.injEq] at h
        rw [← h.2]
        omega
      · simp at h
  · simp at h
  · simp at h

theorem append_of_extent_eq_outer {text front rest : Text}
    (h : extent text = .ok (front, .outer rest)) : text = front ++ rest := by
  simp only [extent] at h
  split at h
  · next stop after hfound =>
    split at h
    · simp at h
    · split at h
      · simp at h
      · simp only [Except.ok.injEq, Prod.mk.injEq, Ending.outer.injEq] at h
        rw [← h.1, ← h.2, Scan.append_of_unnested_eq_found hfound]
  · simp only [Except.ok.injEq, Prod.mk.injEq, Ending.outer.injEq] at h
    rw [← h.1, ← h.2, List.append_nil]
  · simp at h

theorem ne_nil_of_declaration?_eq_ok {text : Text} {item : Item}
    (h : declaration? text = .ok item) : text ≠ [] := by
  rintro rfl
  simp [declaration?, Text.splitFirst?] at h

theorem length_lt_of_readAtRule_eq_ok {text rest : Text} {item : Item}
    (h : readAtRule text = .ok (item, rest)) : rest.length < text.length := by
  simp only [readAtRule] at h
  split at h
  · simp at h
  · next name after hident =>
    have hlt := Ident.length_lt_of_read?_eq_some hident
    split at h
    · next hextent =>
      have hbody := length_of_extent_eq_brace hextent
      simp only [Except.ok.injEq, Prod.mk.injEq] at h
      rw [← h.2]
      omega
    · next hextent =>
      have hrest := length_of_extent_eq_semicolon hextent
      simp only [Except.ok.injEq, Prod.mk.injEq] at h
      rw [← h.2]
      omega
    · next hextent =>
      have hrest := congrArg List.length (append_of_extent_eq_outer hextent)
      simp only [Except.ok.injEq, Prod.mk.injEq] at h
      rw [List.length_append, h.2] at hrest
      omega
    · simp at h

theorem length_lt_of_readConstruct_eq_ok {nested : Bool} {text rest : Text} {item : Item}
    (h : readConstruct nested text = .ok (item, rest)) : rest.length < text.length := by
  simp only [readConstruct] at h
  split at h
  · simp at h
  · next hextent =>
    split at h
    · simp at h
    · simp only [Except.ok.injEq, Prod.mk.injEq] at h
      exact h.2 ▸ length_of_extent_eq_brace hextent
  · next hextent =>
    split at h
    · simp only [finishDeclaration] at h
      split at h
      · simp only [Except.ok.injEq, Prod.mk.injEq] at h
        exact h.2 ▸ length_of_extent_eq_semicolon hextent
      · simp at h
    · simp at h
  · next front after hextent =>
    split at h
    · simp only [finishDeclaration] at h
      split at h
      · next hdeclaration =>
        have hpos := List.length_pos_iff.2 (ne_nil_of_declaration?_eq_ok hdeclaration)
        have hsplit := congrArg List.length (append_of_extent_eq_outer hextent)
        simp only [Except.ok.injEq, Prod.mk.injEq] at h
        rw [List.length_append, h.2] at hsplit
        omega
      · simp at h
    · simp at h

/-- The rest behind an item is shorter than the text. -/
theorem length_lt_of_read_eq_ok {nested : Bool} {text rest : Text} {item : Item}
    (h : read nested text = .ok (item, rest)) : rest.length < text.length := by
  unfold read at h
  split at h
  · split at h
    · simp only [Except.ok.injEq, Prod.mk.injEq] at h
      simp [h.2]
    · simp at h
  · simp only [Except.ok.injEq, Prod.mk.injEq] at h
    simp [h.2]
  · simp only [readComment] at h
    split at h
    · next hafter =>
      have hlt := Scan.length_afterComment?_lt hafter
      simp only [Except.ok.injEq, Prod.mk.injEq] at h
      simp only [← h.2, List.length_cons]
      omega
    · simp at h
  · exact Nat.lt_succ_of_lt (length_lt_of_readAtRule_eq_ok h)
  · exact length_lt_of_readConstruct_eq_ok h

end Item

end ScopedCss.Sheet

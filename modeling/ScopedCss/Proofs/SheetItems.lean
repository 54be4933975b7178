import ScopedCss.Proofs.Blanks
import ScopedCss.Proofs.Scanning
import ScopedCss.Sheet.Basic
import ScopedCss.Sheet.Item
import ScopedCss.Sheet.Printer

/-!
# Reading printed items

Each construct of a style sheet is printed as one item: the head of a block, a closing brace, or a
whole node without a block.  `PrintSafe` says of the texts in a construct that they are trimmed and
that the search for the end of the construct does not stop inside them.  `Readable` asks less: what
is printed behind the text of a construct may help to find its end.

An item is `Legible` if it is read back from its text in front of any rest.  For each kind of
construct there is one lemma that a readable one is legible: `legible_rule`, `legible_block`,
`legible_statement`, `legible_declaration` and `legible_comment`.
-/

namespace ScopedCss

/-! ## Texts that are safe to print -/

namespace Sheet

/-- The characters that end the text of a construct. -/
def stops : List Char := ['{', ';', '}']

end Sheet

/-- The selector is read back from the head of a rule. -/
def Rule.PrintSafe (head : Rule) : Prop :=
  head.selector ≠ [] ∧ head.selector.trim = head.selector ∧ head.selector.head? ≠ some '@' ∧
    ¬['/', '*'] <+: head.selector ∧
    Scan.unnested Sheet.stops (head.selector ++ [' ', '{']) = .found '{' []

/-- The name and the parameters are read back from the head of an at-rule that ends with `gap` and
`stop`. -/
def AtRule.PrintSafe (gap : Text) (stop : Char) (head : AtRule) : Prop :=
  head.params.trim = head.params ∧
    Ident.read? (head.name ++ [' ']) = some (head.name, [' ']) ∧
    Scan.unnested Sheet.stops (head.params ++ gap ++ [stop]) = .found stop []

/-- The property and the value are read back from a declaration. -/
def Declaration.PrintSafe (content : Declaration) : Prop :=
  content.property.trim = content.property ∧ ':' ∉ content.property ∧
    Ident.isIdent content.property = true ∧ content.value.trim = content.value ∧
    Scan.unnested Sheet.stops (content.value ++ [';']) = .found ';' [] ∧
    (content.important = false → ∀ pair ∈ content.value.splitLast? '!',
      Text.eqIgnoringCase (Text.trim pair.2) "important".toList = false)

/-- What is printed behind the value of a declaration. -/
def importance (important : Bool) : Text :=
  if important then [' '] ++ "!important".toList else []

/-- The name and the parameters are read back from the head of an at-rule that ends with `gap` and
`stop`, if the name ends where the parameters or the gap begin. -/
def AtRule.Readable (gap : Text) (stop : Char) (head : AtRule) : Prop :=
  head.params.trim = head.params ∧
    Ident.Ends head.name (if head.params = [] then gap ++ [stop] else [' ']) ∧ head.name ≠ [] ∧
    Scan.unnested Sheet.stops (head.params ++ gap ++ [stop]) = .found stop []

/-- The property and the value are read back from a declaration, if its end is found behind the mark
of importance. -/
def Declaration.Readable (content : Declaration) : Prop :=
  content.property.trim = content.property ∧ ':' ∉ content.property ∧
    Ident.isIdent content.property = true ∧ content.value.trim = content.value ∧
    Scan.unnested Sheet.stops (content.value ++ (importance content.important ++ [';'])) =
      .found ';' [] ∧
    (content.important = false → ∀ pair ∈ content.value.splitLast? '!',
      Text.eqIgnoringCase (Text.trim pair.2) "important".toList = false)

instance (head : Rule) : Decidable head.PrintSafe :=
  inferInstanceAs (Decidable (_ ∧ _))

instance (gap : Text) (stop : Char) (head : AtRule) : Decidable (head.PrintSafe gap stop) :=
  inferInstanceAs (Decidable (_ ∧ _))

instance (content : Declaration) : Decidable content.PrintSafe :=
  inferInstanceAs (Decidable (_ ∧ _))

theorem AtRule.PrintSafe.readable {head : AtRule} {gap : Text} {stop : Char}
    (h : head.PrintSafe gap stop) (hgap : ∀ c ∈ gap, c = ' ')
    (hdelimiter : Ident.isDelimiter stop = true) : head.Readable gap stop := by
  obtain ⟨htrim, hname, hfound⟩ := h
  rw [Ident.read?_append_eq_some_iff] at hname
  refine ⟨htrim, ?_, hname.1, hfound⟩
  split
  · -- Without parameters the name ends at the gap, or at `stop` if there is no gap.
    refine hname.2.of_alike ?_
    cases gap with
    | nil =>
      refine .inl fun c hc => ?_
      obtain rfl : stop = c := Option.some.inj hc
      exact hdelimiter
    | cons c gap =>
      obtain rfl := hgap c List.mem_cons_self
      exact .inr ⟨rfl, by decide⟩
  · exact hname.2

theorem passes_importance (important : Bool) : Scan.Passes Sheet.stops (importance important) := by
  cases important with
  | false => exact .nil _
  | true => exact Scan.passes_of_all (by decide)

theorem Declaration.PrintSafe.readable {content : Declaration} (h : content.PrintSafe) :
    content.Readable := by
  obtain ⟨hproperty, hcolon, hident, hvalue, hfound, himportant⟩ := h
  refine ⟨hproperty, hcolon, hident, hvalue, ?_, himportant⟩
  have hstar : (importance content.important ++ [';']).head? ≠ some '*' := by
    cases content.important <;> simp [importance]
  rw [Scan.unnested_append_of_found hfound hstar]
  exact (passes_importance content.important).unnested_append (by decide) (by decide) []

namespace Sheet.Item

/-! ## Legible items -/

/-- The text that is printed for an item. -/
def text : Item → Text
  | .openRule selector => selector ++ [' ', '{']
  | .openBlock name params => AtRule.print ⟨name, params, none⟩ ++ [' ', '{']
  | .close => ['}']
  | .semicolon => [';']
  | .statement name params => AtRule.print ⟨name, params, none⟩ ++ [';']
  | .declaration property value important =>
    Declaration.print ⟨property, value, important, none⟩ ++ [';']
  | .comment content => '/' :: '*' :: (content ++ ['*', '/'])

/-- The item may stand inside a block only. -/
def isInner : Item → Bool
  | .close => true
  | .declaration _ _ _ => true
  | _ => false

/-- The item is read back from its text, whatever stands behind it. -/
def Legible (item : Item) : Prop :=
  (∃ c, item.text.head? = some c ∧ Text.isSpace c = false) ∧
    ∀ nested, (item.isInner = true → nested = true) →
      ∀ rest, read nested (item.text ++ rest) = .ok (item, rest)

theorem legible_close : Legible .close := by
  refine ⟨⟨'}', rfl, by decide⟩, fun nested hnested rest => ?_⟩
  rw [hnested rfl]
  rfl

/-! ## The end of a construct -/

theorem extent_brace {front rest : Text}
    (h : Scan.unnested stops (front ++ '{' :: rest) = .found '{' rest) :
    extent (front ++ '{' :: rest) = .ok (front, .brace rest) := by
  rw [extent, ← stops, h]
  simp

theorem extent_semicolon {front rest : Text}
    (h : Scan.unnested stops (front ++ ';' :: rest) = .found ';' rest) :
    extent (front ++ ';' :: rest) = .ok (front, .semicolon rest) := by
  rw [extent, ← stops, h]
  simp

/-- A construct that is not the end of a block, a semicolon, a comment or an at-rule. -/
theorem read_eq_readConstruct {nested : Bool} {text : Text}
    (hhead : ∀ c ∈ text.head?, c ≠ '}' ∧ c ≠ ';' ∧ c ≠ '@') (hcomment : ¬['/', '*'] <+: text) :
    read nested text = readConstruct nested text := by
  rw [read]
  · rintro rest rfl
    exact (hhead '}' rfl).1 rfl
  · rintro rest rfl
    exact (hhead ';' rfl).2.1 rfl
  · rintro body rfl
    exact hcomment ⟨body, rfl⟩
  · rintro text rfl
    exact (hhead '@' rfl).2.2 rfl

theorem isBlank_of_mem_space : ∀ c ∈ [' '], Text.isBlank c = true :=
  List.all_eq_true.1 (by decide)

/-! ## Heads of blocks and statements -/

/-- A construct does not begin with a character that would end it. -/
theorem ne_of_found {c stop d : Char} {text after : Text}
    (h : Scan.unnested stops (c :: text) = .found stop after) (hmem : d ∈ stops)
    (hbare : Scan.isBare d = true) (hne : d ≠ stop) : c ≠ d := by
  rintro rfl
  have hfound : Scan.unnested stops (c :: text) = .found c text :=
    (Scan.Passes.nil stops).unnested_append hmem hbare text
  exact hne (Scan.Outcome.found.inj (hfound.symm.trans h)).1

theorem legible_rule {head : Rule} (h : head.PrintSafe) : Legible (.openRule head.selector) := by
  obtain ⟨hne, htrim, hat, hcomment, hfound⟩ := h
  obtain ⟨c, tail, hselector⟩ := List.exists_cons_of_ne_nil hne
  have hhead : head.selector.head? = some c := by rw [hselector]; rfl
  refine ⟨⟨c, ?_, Text.isSpace_eq_false_of_trim htrim hhead⟩, fun nested _ rest => ?_⟩
  · rw [text, hselector]
    rfl
  have hconstruct : read nested (head.selector ++ [' ', '{'] ++ rest) =
      readConstruct nested (head.selector ++ [' ', '{'] ++ rest) := by
    rw [hselector] at hfound hat hcomment ⊢
    refine read_eq_readConstruct (fun d hd => ?_) fun hstart => hcomment ?_
    · obtain rfl : c = d := Option.some.inj hd
      refine ⟨ne_of_found hfound (by decide) (by decide) (by decide),
        ne_of_found hfound (by decide) (by decide) (by decide), ?_⟩
      rintro rfl
      exact hat rfl
    · -- The character behind a lone `/` is the space in front of the brace.
      cases tail with
      | nil => simp at hstart
      | cons d tail => simpa using hstart
  have hsplit : head.selector ++ [' ', '{'] ++ rest = head.selector ++ [' '] ++ '{' :: rest := by
    simp
  have hbrace : Scan.unnested stops (head.selector ++ [' '] ++ '{' :: rest) = .found '{' rest :=
    Scan.unnested_congr_of_found (by rw [List.append_assoc]; exact hfound) (by decide) rest
  have hfront : Text.trim (head.selector ++ [' ']) = head.selector :=
    Text.trim_append (List.forall_mem_nil _) isBlank_of_mem_space htrim
  rw [text, hconstruct, hsplit, readConstruct, extent_brace hbrace]
  simp [hfront, hne]

/-- The text of an at-rule ends its name, and what stands between the name and `stop` is the text of
the parameters with spaces around it. -/
theorem exists_front {head : AtRule} {gap : Text} {stop : Char} (h : head.Readable gap stop)
    (hgap : ∀ c ∈ gap, c = ' ') (hbare : Scan.isBare stop = true) (rest : Text) :
    ∃ front, head.print ++ (gap ++ stop :: rest) = '@' :: (head.name ++ (front ++ stop :: rest)) ∧
      Ident.read? (head.name ++ (front ++ stop :: rest)) =
        some (head.name, front ++ stop :: rest) ∧
      Scan.unnested stops (front ++ stop :: rest) = .found stop rest ∧
      Text.trim front = head.params := by
  obtain ⟨htrim, hends, hname, hfound⟩ := h
  have hfound := Scan.unnested_congr_of_found hfound hbare rest
  have hspace : ∀ c ∈ gap, Text.isBlank c = true := by
    intro c hc
    rw [hgap c hc]
    decide
  have hslash : gap ++ [stop] ≠ ['\\'] := by
    intro heq
    obtain rfl := List.singleton_inj.1 (List.append_inj' (heq.trans (List.nil_append _).symm) rfl).2
    exact absurd hbare (by decide)
  by_cases hparams : head.params = []
  · rw [if_pos hparams] at hends
    rw [hparams, List.nil_append] at hfound
    refine ⟨gap, by simp [AtRule.print, hparams], ?_, hfound, ?_⟩
    · refine Ident.read?_append_eq_some_iff.2 ⟨hname, hends.of_alike (.inr ⟨?_, hslash⟩)⟩
      cases gap <;> rfl
    · have hblank : Text.trim (gap ++ ([] ++ [])) = [] :=
        Text.trim_append hspace (List.forall_mem_nil _) rfl
      simpa [hparams] using hblank
  · rw [if_neg hparams] at hends
    refine ⟨' ' :: (head.params ++ gap), by simp [AtRule.print, hparams], ?_, ?_, ?_⟩
    · exact Ident.read?_append_eq_some_iff.2 ⟨hname, hends.of_alike (.inr ⟨rfl, by decide⟩)⟩
    · have hlead : Scan.Passes stops [' '] := Scan.passes_of_all (by decide)
      rw [List.cons_append]
      exact (hlead stops [] _ fun _ c hc => hc).trans hfound
    · exact Text.trim_append isBlank_of_mem_space hspace htrim

theorem print_eq (head : AtRule) : AtRule.print ⟨head.name, head.params, none⟩ = head.print := rfl

theorem head?_print (head : AtRule) (rest : Text) : (head.print ++ rest).head? = some '@' := by
  rw [AtRule.print]
  split <;> rfl

theorem legible_block {head : AtRule} (h : head.Readable [' '] '{') :
    Legible (.openBlock head.name head.params) := by
  refine ⟨⟨'@', head?_print _ _, by decide⟩, fun nested _ rest => ?_⟩
  obtain ⟨front, htext, hname, hfound, htrim⟩ := exists_front h (by simp) (by decide) rest
  have htext : head.print ++ [' ', '{'] ++ rest =
      '@' :: (head.name ++ (front ++ '{' :: rest)) := by
    rw [List.append_assoc]
    exact htext
  rw [text, print_eq, htext, read, readAtRule, hname]
  simp only [extent_brace hfound, htrim]

theorem legible_statement {head : AtRule} (h : head.Readable [] ';') :
    Legible (.statement head.name head.params) := by
  refine ⟨⟨'@', head?_print _ _, by decide⟩, fun nested _ rest => ?_⟩
  obtain ⟨front, htext, hname, hfound, htrim⟩ := exists_front h (by simp) (by decide) rest
  have htext : head.print ++ [';'] ++ rest = '@' :: (head.name ++ (front ++ ';' :: rest)) := by
    rw [List.append_assoc]
    exact htext
  rw [text, print_eq, htext, read, readAtRule, hname]
  simp only [extent_semicolon hfound, htrim]

/-! ## Declarations and comments -/

theorem print_declaration (content : Declaration) :
    content.print =
      content.property ++ ':' :: ([' '] ++ (content.value ++ importance content.important)) := by
  cases hmark : content.important <;> simp [Declaration.print, importance, hmark]

/-- The mark behind a value is split off again. -/
theorem splitImportant_importance {value : Text} {important : Bool} (htrim : value.trim = value)
    (h : important = false → ∀ pair ∈ value.splitLast? '!',
      Text.eqIgnoringCase (Text.trim pair.2) "important".toList = false) :
    splitImportant (Text.trim ([' '] ++ (value ++ importance important))) = (value, important) := by
  cases important with
  | false =>
    have hvalue : Text.trim ([' '] ++ (value ++ importance false)) = value :=
      Text.trim_append isBlank_of_mem_space (List.forall_mem_nil _) htrim
    rw [hvalue, splitImportant]
    split
    · next front back hsplit =>
      rw [h rfl (front, back) hsplit]
      rfl
    · rfl
  | true =>
    have htext : [' '] ++ (value ++ importance true) =
        ([' '] ++ (value ++ [' '])) ++ "!important".toList := by
      simp only [importance, if_pos, List.append_assoc]
    have hsplit : ∀ front, Text.splitLast? '!' (front ++ "!important".toList) =
        some (front, "important".toList) :=
      Text.splitLast?_append (by decide)
    have hfront : Text.trimEnd (Text.trimStart ([' '] ++ (value ++ [' ']))) = value :=
      Text.trim_append isBlank_of_mem_space isBlank_of_mem_space htrim
    rw [htext, Text.trim_append_of_ne_nil (by decide) (by decide), splitImportant, hsplit]
    dsimp only
    rw [if_pos (by decide), hfront]

theorem extent_declaration {content : Declaration} (h : content.Readable) (rest : Text) :
    extent (content.print ++ ';' :: rest) = .ok (content.print, .semicolon rest) := by
  obtain ⟨-, -, hident, -, hfound, -⟩ := h
  have hname := Ident.ends_of_read?_eq_some (beq_iff_eq.1 hident)
  have hproperty : Scan.Passes stops (content.property ++ [':', ' ']) :=
    (Scan.passes_of_ends hname (by decide)).append (Scan.passes_of_all (by decide))
  rw [← List.append_assoc] at hfound
  have hsplit : content.print ++ ';' :: rest = content.property ++ [':', ' '] ++
      (content.value ++ importance content.important ++ ';' :: rest) := by
    simp [print_declaration]
  refine extent_semicolon ?_
  rw [hsplit]
  exact (hproperty stops [] _ fun _ c hc => hc).trans
    (Scan.unnested_congr_of_found hfound (by decide) rest)

theorem declaration?_print {content : Declaration} (h : content.Readable) :
    declaration? content.print =
      .ok (.declaration content.property content.value content.important) := by
  obtain ⟨hproperty, hcolon, hident, hvalue, -, himportant⟩ := h
  rw [print_declaration, declaration?, Text.splitFirst?_append hcolon]
  simp only [hproperty, hident, if_true, splitImportant_importance hvalue himportant]

theorem legible_declaration {content : Declaration} (h : content.Readable) :
    Legible (.declaration content.property content.value content.important) := by
  obtain ⟨c, tail, hcons, hstart⟩ :=
    (Ident.isName_of_read?_eq_some (beq_iff_eq.1 h.2.2.1)).exists_cons
  have hhead : content.property.head? = some c := by rw [hcons]; rfl
  refine ⟨⟨c, ?_, Text.isSpace_eq_false_of_trim h.1 hhead⟩, fun nested hnested rest => ?_⟩
  · rw [text, Declaration.print]
    simp only [hcons]
    rfl
  have hne : ∀ d, Ident.isIdentChar d = false → d ≠ '\\' → c ≠ d := by
    rintro d hd hslash rfl
    rcases hstart with hchar | ⟨rfl, -⟩
    · exact absurd (hd.symm.trans hchar) (by decide)
    · exact hslash rfl
  have htext : text (.declaration content.property content.value content.important) ++ rest =
      content.print ++ ';' :: rest := by
    rw [text, List.append_assoc]
    rfl
  have hconstruct : read true (content.print ++ ';' :: rest) =
      readConstruct true (content.print ++ ';' :: rest) := by
    rw [print_declaration, hcons]
    refine read_eq_readConstruct (fun d hd => ?_) fun hcomment => ?_
    · obtain rfl : c = d := Option.some.inj hd
      exact ⟨hne _ (by decide) (by decide), hne _ (by decide) (by decide),
        hne _ (by decide) (by decide)⟩
    · exact hne '/' (by decide) (by decide) (List.cons_prefix_cons.1 hcomment).1.symm
  rw [htext, hnested rfl, hconstruct, readConstruct, extent_declaration h]
  simp only [finishDeclaration, declaration?_print h, if_true]

theorem legible_comment {content : Text} (h : ¬['*', '/'] <:+: content) :
    Legible (.comment content) := by
  refine ⟨⟨'/', rfl, by decide⟩, fun nested _ rest => ?_⟩
  rw [text, List.cons_append, List.cons_append, List.append_assoc, read, readComment]
  rw [List.cons_append, List.singleton_append, Scan.afterComment?_append h]
  simp

end Sheet.Item

end ScopedCss

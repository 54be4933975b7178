import ScopedCss.Proofs.SheetItems
import ScopedCss.Proofs.TrimmedTexts

/-!
# The spelling of items

`Spelled nested text item rest` lists how the items of a style sheet are spelled in front of a rest,
one rule for each kind, and `read_eq_ok_iff` says that reading an item follows exactly these rules.
`Ended front ending` does the same for the end of a construct.

An item is spelled the same way whatever stands behind it (`Spelled.append`).  The exception is a
line that ends with the text: there, more text may go on with the line.
-/

namespace ScopedCss

/-- A name ends where it did if text is added behind a rest that has already ended it. -/
theorem Ident.read?_append {text name rest : Text} (h : read? text = some (name, rest))
    (hne : rest ≠ []) (hslash : rest ≠ ['\\']) (other : Text) :
    read? (text ++ other) = some (name, rest ++ other) := by
  have htext := append_of_read?_eq_some h
  rw [htext, List.append_assoc, read?_append_eq_some_iff]
  refine ⟨ne_nil_of_read?_eq_some h, (ends_of_read?_eq_some h).of_alike (.inr ⟨?_, hslash⟩)⟩
  obtain ⟨c, tail, rfl⟩ := List.exists_cons_of_ne_nil hne
  rfl

namespace Sheet.Item

/-! ## The end of a construct -/

theorem isBare_of_mem_stops : ∀ c ∈ stops, Scan.isBare c = true :=
  List.all_eq_true.1 (by decide)

/-- The text from the end of the construct on. -/
def Ending.text : Ending → Text
  | .brace body => '{' :: body
  | .semicolon rest => ';' :: rest
  | .outer rest => rest

/-- The ending with more text behind it. -/
def Ending.append (other : Text) : Ending → Ending
  | .brace body => .brace (body ++ other)
  | .semicolon rest => .semicolon (rest ++ other)
  | .outer rest => .outer (rest ++ other)

theorem Ending.text_append (other : Text) (ending : Ending) :
    (ending.append other).text = ending.text ++ other := by
  cases ending <;> rfl

/-- The construct with the text `front` ends in the given way: at a stop that is found, or with the
text. -/
inductive Ended (front : Text) : Ending → Prop where
  | brace {body : Text} :
    Scan.unnested stops (front ++ '{' :: body) = .found '{' body → Ended front (.brace body)
  | semicolon {rest : Text} :
    Scan.unnested stops (front ++ ';' :: rest) = .found ';' rest → Ended front (.semicolon rest)
  | close {rest : Text} :
    Scan.unnested stops (front ++ '}' :: rest) = .found '}' rest →
    Ended front (.outer ('}' :: rest))
  | last : Scan.unnested stops front = .absent → Ended front (.outer [])

/-- The end of a construct is at a stop, unless it is the end of the text. -/
theorem Ended.found {front : Text} {ending : Ending} (h : Ended front ending)
    (hending : ending ≠ .outer []) :
    ∃ stop after, ending.text = stop :: after ∧ stop ∈ stops ∧
      Scan.unnested stops (front ++ stop :: after) = .found stop after := by
  cases h with
  | brace hfound => exact ⟨_, _, rfl, (Scan.scan_eq_found hfound).1, hfound⟩
  | semicolon hfound => exact ⟨_, _, rfl, (Scan.scan_eq_found hfound).1, hfound⟩
  | close hfound => exact ⟨_, _, rfl, (Scan.scan_eq_found hfound).1, hfound⟩
  | last => exact absurd rfl hending

theorem Ended.append {front : Text} {ending : Ending} (h : Ended front ending)
    (hending : ending ≠ .outer []) (other : Text) : Ended front (ending.append other) := by
  cases h with
  | brace hfound => exact .brace (Scan.unnested_congr_of_found hfound (by decide) _)
  | semicolon hfound => exact .semicolon (Scan.unnested_congr_of_found hfound (by decide) _)
  | close hfound => exact .close (Scan.unnested_congr_of_found hfound (by decide) _)
  | last => exact absurd rfl hending

/-- A construct is cut off where it ends. -/
theorem extent_eq_ok_iff {text front : Text} {ending : Ending} :
    extent text = .ok (front, ending) ↔ text = front ++ ending.text ∧ Ended front ending := by
  constructor
  · intro h
    rw [extent, ← stops] at h
    split at h
    · next stop after hfound =>
      have hsplit := Scan.append_of_unnested_eq_found hfound
      have hmem := (Scan.scan_eq_found hfound).1
      generalize text.before (stop :: after) = before at h hsplit
      subst hsplit
      dsimp only at h
      split_ifs at h with hbrace hsemicolon
      · obtain ⟨rfl, rfl⟩ := Prod.mk.inj (Except.ok.inj h)
        subst hbrace
        exact ⟨rfl, .brace hfound⟩
      · obtain ⟨rfl, rfl⟩ := Prod.mk.inj (Except.ok.inj h)
        subst hsemicolon
        exact ⟨rfl, .semicolon hfound⟩
      · obtain ⟨rfl, rfl⟩ := Prod.mk.inj (Except.ok.inj h)
        obtain rfl : stop = '}' := by
          simpa [stops, hbrace, hsemicolon] using hmem
        exact ⟨rfl, .close hfound⟩
    · next habsent =>
      obtain ⟨rfl, rfl⟩ := Prod.mk.inj (Except.ok.inj h)
      exact ⟨(List.append_nil _).symm, .last habsent⟩
    · simp at h
  · rintro ⟨rfl, hended⟩
    cases hended with
    | brace hfound => exact extent_brace hfound
    | semicolon hfound => exact extent_semicolon hfound
    | close hfound =>
      rw [Ending.text, extent, ← stops, hfound]
      simp
    | last habsent =>
      rw [Ending.text, List.append_nil, extent, ← stops, habsent]

/-- The construct ends at a stop, or in the end of the text. -/
theorem extent_eq_ok {text front : Text} {ending : Ending}
    (h : extent text = .ok (front, ending)) :
    (∃ stop after, text = front ++ stop :: after ∧
      Scan.unnested stops text = .found stop after) ∨ (front = text ∧ ending = .outer []) := by
  obtain ⟨rfl, hended⟩ := extent_eq_ok_iff.1 h
  by_cases hlast : ending = .outer []
  · subst hlast
    exact .inr ⟨(List.append_nil front).symm, rfl⟩
  · obtain ⟨stop, after, htext, -, hfound⟩ := hended.found hlast
    rw [htext]
    exact .inl ⟨stop, after, rfl, hfound⟩

/-! ## Inversion of the readers -/

/-- What is read behind an `@` is a name and the text up to the end of the construct. -/
theorem readAtRule_eq_ok {text rest : Text} {item : Item}
    (h : readAtRule text = .ok (item, rest)) :
    ∃ name after front ending, Ident.read? text = some (name, after) ∧
      extent after = .ok (front, ending) ∧
      ((ending = .brace rest ∧ item = .openBlock name front.trim) ∨
        ((ending = .semicolon rest ∨ ending = .outer rest) ∧
          item = .statement name front.trim)) := by
  unfold readAtRule at h
  split at h
  · simp at h
  · next name after hname =>
    split at h
    · next front body hextent =>
      obtain ⟨rfl, rfl⟩ := Prod.mk.inj (Except.ok.inj h)
      exact ⟨name, after, front, _, hname, hextent, .inl ⟨rfl, rfl⟩⟩
    · next front other hextent =>
      obtain ⟨rfl, rfl⟩ := Prod.mk.inj (Except.ok.inj h)
      exact ⟨name, after, front, _, hname, hextent, .inr ⟨.inl rfl, rfl⟩⟩
    · next front other hextent =>
      obtain ⟨rfl, rfl⟩ := Prod.mk.inj (Except.ok.inj h)
      exact ⟨name, after, front, _, hname, hextent, .inr ⟨.inr rfl, rfl⟩⟩
    · simp at h

/-- What is read behind a `/*` ends with the first `*/`. -/
theorem readComment_eq_ok {body rest : Text} {item : Item}
    (h : readComment body = .ok (item, rest)) :
    ∃ content, item = .comment content ∧ ¬['*', '/'] <:+: content ∧
      body = content ++ '*' :: '/' :: rest := by
  unfold readComment at h
  split at h
  · next rest hafter =>
    obtain ⟨content, rfl, hcontent⟩ := Scan.exists_comment_of_afterComment?_eq_some hafter
    obtain ⟨rfl, rfl⟩ := Prod.mk.inj (Except.ok.inj h)
    exact ⟨content, by rw [Text.before_append], hcontent, rfl⟩
  · simp at h

/-- A declaration has a property in front of its first colon and a value behind it. -/
theorem declaration?_eq_ok {text : Text} {item : Item} (h : declaration? text = .ok item) :
    ∃ front back : Text, text = front ++ ':' :: back ∧ ':' ∉ front ∧
      Ident.isIdent front.trim = true ∧
      item = .declaration front.trim (splitImportant back.trim).1 (splitImportant back.trim).2 := by
  unfold declaration? at h
  split at h
  · simp at h
  · next front back hsplit =>
    obtain ⟨rfl, hcolon⟩ := Text.append_of_splitFirst?_eq_some hsplit
    dsimp only at h
    split at h
    · next hident => exact ⟨front, back, rfl, hcolon, hident, (Except.ok.inj h).symm⟩
    · simp at h

theorem declaration?_append {property value : Text} (hcolon : ':' ∉ property)
    (hident : Ident.isIdent property.trim = true) :
    declaration? (property ++ ':' :: value) =
      .ok (.declaration property.trim (splitImportant value.trim).1
        (splitImportant value.trim).2) := by
  rw [declaration?, Text.splitFirst?_append hcolon]
  simp only [hident, if_true]

/-- What stands at the start of a text is a head of a rule or, inside a block, a declaration. -/
theorem readConstruct_eq_ok {nested : Bool} {text rest : Text} {item : Item}
    (h : readConstruct nested text = .ok (item, rest)) :
    ∃ front ending, extent text = .ok (front, ending) ∧
      ((ending = .brace rest ∧ front.trim ≠ [] ∧ item = .openRule front.trim) ∨
        ((ending = .semicolon rest ∨ ending = .outer rest) ∧ nested = true ∧
          declaration? front = .ok item)) := by
  have hfinish : ∀ front other, finishDeclaration text front other = .ok (item, rest) →
      other = rest ∧ declaration? front = .ok item := by
    intro front other hok
    unfold finishDeclaration at hok
    split at hok
    · next hitem =>
      obtain ⟨rfl, rfl⟩ := Prod.mk.inj (Except.ok.inj hok)
      exact ⟨rfl, hitem⟩
    · simp at hok
  unfold readConstruct at h
  split at h
  · simp at h
  · next front body hextent =>
    split at h
    · simp at h
    · next hne =>
      obtain ⟨rfl, rfl⟩ := Prod.mk.inj (Except.ok.inj h)
      exact ⟨front, _, hextent, .inl ⟨rfl, by simpa using hne, rfl⟩⟩
  · next front other hextent =>
    split at h
    · next hnested =>
      obtain ⟨rfl, hitem⟩ := hfinish front other h
      exact ⟨front, _, hextent, .inr ⟨.inl rfl, hnested, hitem⟩⟩
    · simp at h
  · next front other hextent =>
    split at h
    · next hnested =>
      obtain ⟨rfl, hitem⟩ := hfinish front other h
      exact ⟨front, _, hextent, .inr ⟨.inr rfl, hnested, hitem⟩⟩
    · simp at h

/-! ## How items are spelled -/

/-- The text does not begin as another item does: with the end of a block, a semicolon, an at-rule or
a comment. -/
structure BeginsConstruct (text : Text) : Prop where
  head : ∀ c ∈ text.head?, c ≠ '}' ∧ c ≠ ';' ∧ c ≠ '@'
  comment : ¬['/', '*'] <+: text

/-- The spellings of items inside a block or outside of all blocks, each with the text that follows
it. -/
inductive Spelled : Bool → Text → Item → Text → Prop where
  | close {rest : Text} : Spelled true ('}' :: rest) .close rest
  | semicolon {nested : Bool} {rest : Text} : Spelled nested (';' :: rest) .semicolon rest
  | comment {nested : Bool} {content rest : Text} :
    ¬['*', '/'] <:+: content →
    Spelled nested ('/' :: '*' :: (content ++ '*' :: '/' :: rest)) (.comment content) rest
  | openBlock {nested : Bool} {name front rest : Text} :
    Ident.read? (name ++ (front ++ '{' :: rest)) = some (name, front ++ '{' :: rest) →
    Ended front (.brace rest) →
    Spelled nested ('@' :: (name ++ (front ++ '{' :: rest))) (.openBlock name front.trim) rest
  | statement {nested : Bool} {name front rest : Text} {ending : Ending} :
    Ident.read? (name ++ (front ++ ending.text)) = some (name, front ++ ending.text) →
    Ended front ending → (ending = .semicolon rest ∨ ending = .outer rest) →
    Spelled nested ('@' :: (name ++ (front ++ ending.text))) (.statement name front.trim) rest
  | openRule {nested : Bool} {front rest : Text} :
    BeginsConstruct (front ++ '{' :: rest) → Ended front (.brace rest) → front.trim ≠ [] →
    Spelled nested (front ++ '{' :: rest) (.openRule front.trim) rest
  | declaration {property value rest : Text} {ending : Ending} :
    BeginsConstruct (property ++ ':' :: value ++ ending.text) →
    Ended (property ++ ':' :: value) ending → (ending = .semicolon rest ∨ ending = .outer rest) →
    ':' ∉ property → Ident.isIdent property.trim = true →
    Spelled true (property ++ ':' :: value ++ ending.text)
      (.declaration property.trim (splitImportant value.trim).1 (splitImportant value.trim).2) rest

theorem spelled_of_readAtRule {nested : Bool} {text rest : Text} {item : Item}
    (h : readAtRule text = .ok (item, rest)) : Spelled nested ('@' :: text) item rest := by
  obtain ⟨name, after, front, ending, hname, hextent, hcases⟩ := readAtRule_eq_ok h
  obtain rfl := Ident.append_of_read?_eq_some hname
  obtain ⟨rfl, hended⟩ := extent_eq_ok_iff.1 hextent
  rcases hcases with ⟨rfl, rfl⟩ | ⟨hending, rfl⟩
  · exact .openBlock hname hended
  · exact .statement hname hended hending

theorem spelled_of_readConstruct {nested : Bool} {text rest : Text} {item : Item}
    (hbegins : BeginsConstruct text) (h : readConstruct nested text = .ok (item, rest)) :
    Spelled nested text item rest := by
  obtain ⟨front, ending, hextent, hcases⟩ := readConstruct_eq_ok h
  obtain ⟨rfl, hended⟩ := extent_eq_ok_iff.1 hextent
  rcases hcases with ⟨rfl, hne, rfl⟩ | ⟨hending, rfl, hitem⟩
  · exact .openRule hbegins hended hne
  · obtain ⟨property, value, rfl, hcolon, hident, rfl⟩ := declaration?_eq_ok hitem
    exact .declaration hbegins hended hending hcolon hident

theorem spelled_of_read {nested : Bool} {text rest : Text} {item : Item}
    (h : read nested text = .ok (item, rest)) : Spelled nested text item rest := by
  unfold read at h
  split at h
  · split at h
    · next hnested =>
      obtain ⟨rfl, rfl⟩ := Prod.mk.inj (Except.ok.inj h)
      subst hnested
      exact .close
    · simp at h
  · obtain ⟨rfl, rfl⟩ := Prod.mk.inj (Except.ok.inj h)
    exact .semicolon
  · obtain ⟨content, rfl, hcontent, rfl⟩ := readComment_eq_ok h
    exact .comment hcontent
  · exact spelled_of_readAtRule h
  · next hclose hsemicolon hcomment hat =>
    refine spelled_of_readConstruct ⟨fun c hc => ?_, ?_⟩ h
    · obtain ⟨tail, rfl⟩ := List.head?_eq_some_iff.1 hc
      refine ⟨?_, ?_, ?_⟩
      · rintro rfl
        exact hclose tail rfl
      · rintro rfl
        exact hsemicolon tail rfl
      · rintro rfl
        exact hat tail rfl
    · rintro ⟨body, rfl⟩
      exact hcomment body rfl

theorem read_of_spelled {nested : Bool} {text rest : Text} {item : Item}
    (h : Spelled nested text item rest) : read nested text = .ok (item, rest) := by
  cases h with
  | close => rfl
  | semicolon => rfl
  | comment hcontent =>
    rw [read, readComment, Scan.afterComment?_append hcontent]
    simp
  | openBlock hname hended =>
    have hextent := extent_eq_ok_iff.2 ⟨rfl, hended⟩
    rw [Ending.text] at hextent
    rw [read, readAtRule, hname]
    simp only [hextent]
  | statement hname hended hending =>
    have hextent := extent_eq_ok_iff.2 ⟨rfl, hended⟩
    rw [read, readAtRule, hname]
    rcases hending with rfl | rfl <;> simp only [hextent]
  | openRule hbegins hended hne =>
    have hextent := extent_eq_ok_iff.2 ⟨rfl, hended⟩
    rw [Ending.text] at hextent
    rw [read_eq_readConstruct hbegins.head hbegins.comment, readConstruct, hextent]
    simp [hne]
  | declaration hbegins hended hending hcolon hident =>
    have hextent := extent_eq_ok_iff.2 ⟨rfl, hended⟩
    rw [read_eq_readConstruct hbegins.head hbegins.comment, readConstruct, hextent]
    rcases hending with rfl | rfl <;>
      simp only [finishDeclaration, declaration?_append hcolon hident, if_true]

/-- Reading an item follows the rules of spelling. -/
theorem read_eq_ok_iff {nested : Bool} {text rest : Text} {item : Item} :
    read nested text = .ok (item, rest) ↔ Spelled nested text item rest :=
  ⟨spelled_of_read, read_of_spelled⟩

/-! ## The text of an item -/

/-- What an item leaves is the end of the text. -/
theorem Spelled.suffix {nested : Bool} {text rest : Text} {item : Item}
    (h : Spelled nested text item rest) : rest <:+ text := by
  have hending : ∀ {ending : Ending}, ending = .semicolon rest ∨ ending = .outer rest →
      rest <:+ ending.text := by
    rintro ending (rfl | rfl)
    · exact List.suffix_cons ';' rest
    · exact List.suffix_refl rest
  cases h with
  | close => exact List.suffix_cons '}' rest
  | semicolon => exact List.suffix_cons ';' rest
  | @comment _ content => exact ⟨'/' :: '*' :: (content ++ ['*', '/']), by simp⟩
  | @openBlock _ name front => exact ⟨'@' :: (name ++ (front ++ ['{'])), by simp⟩
  | @statement _ name front _ ending _ _ hcases =>
    exact (hending hcases).trans ⟨'@' :: (name ++ front), by simp⟩
  | @openRule _ front => exact ⟨front ++ ['{'], by simp⟩
  | declaration _ _ hcases => exact (hending hcases).trans (List.suffix_append _ _)

/-- The item is a line: it ends with a semicolon, or with the block or the text around it. -/
def isLine : Item → Bool
  | .statement _ _ => true
  | .declaration _ _ _ => true
  | _ => false

/-- Where a construct ends at a stop, neither its text nor the name in front of it can go on behind
the text. -/
theorem Ended.ne_backslash {front : Text} {ending : Ending} (h : Ended front ending)
    (hending : ending ≠ .outer []) :
    front ++ ending.text ≠ [] ∧ front ++ ending.text ≠ ['\\'] := by
  obtain ⟨stop, after, htext, hmem, -⟩ := h.found hending
  rw [htext]
  refine ⟨by simp, fun heq => ?_⟩
  cases front with
  | nil =>
    obtain ⟨rfl, -⟩ := List.cons.inj heq
    exact absurd hmem (by decide)
  | cons c front => simp at heq

theorem BeginsConstruct.append {front : Text} {ending : Ending}
    (h : BeginsConstruct (front ++ ending.text)) (hended : Ended front ending)
    (hending : ending ≠ .outer []) (other : Text) :
    BeginsConstruct (front ++ (ending.append other).text) := by
  obtain ⟨stop, after, htext, hmem, -⟩ := hended.found hending
  rw [Ending.text_append, ← List.append_assoc]
  refine ⟨?_, fun hcomment => ?_⟩
  · obtain ⟨c, tail, hcons⟩ := List.exists_cons_of_ne_nil (hended.ne_backslash hending).1
    rw [hcons]
    exact fun d hd => h.head d (by rw [hcons]; exact hd)
  · -- The `*` would have to stand behind the text, but the text does not end with a `/`.
    by_cases hlength : 2 ≤ (front ++ ending.text).length
    · exact h.comment (List.prefix_of_prefix_length_le hcomment (List.prefix_append _ other) hlength)
    · cases front with
      | nil =>
        rw [List.nil_append, htext] at hcomment
        obtain ⟨hslash, -⟩ := List.cons_prefix_cons.1 hcomment
        rw [← hslash] at hmem
        exact absurd hmem (by decide)
      | cons c front =>
        rw [htext] at hlength
        simp only [List.length_append, List.length_cons] at hlength
        omega

/-- An item is spelled in the same way whatever stands behind it, unless it is a line that ends with
the text. -/
theorem Spelled.append {nested : Bool} {text rest : Text} {item : Item}
    (h : Spelled nested text item rest) (hrest : item.isLine = true → rest ≠ []) (other : Text) :
    Spelled nested (text ++ other) item (rest ++ other) := by
  have hline : ∀ {ending : Ending}, rest ≠ [] → ending = .semicolon rest ∨ ending = .outer rest →
      ending ≠ .outer [] ∧ (ending.append other = .semicolon (rest ++ other) ∨
        ending.append other = .outer (rest ++ other)) := by
    rintro ending hne (rfl | rfl)
    · exact ⟨nofun, .inl rfl⟩
    · exact ⟨fun heq => hne (Ending.outer.inj heq), .inr rfl⟩
  cases h with
  | close => exact .close
  | semicolon => exact .semicolon
  | comment hcontent =>
    have hspelled := @Spelled.comment nested _ (rest ++ other) hcontent
    simpa using hspelled
  | openBlock hname hended =>
    have hends := hended.ne_backslash nofun
    have hread := Ident.read?_append hname hends.1 hends.2 other
    have hspelled := @Spelled.openBlock nested _ _ (rest ++ other) (by simpa using hread)
      (hended.append nofun other)
    simpa using hspelled
  | statement hname hended hcases =>
    obtain ⟨hending, hmore⟩ := hline (hrest rfl) hcases
    have hends := hended.ne_backslash hending
    have hread := Ident.read?_append hname hends.1 hends.2 other
    have hspelled := @Spelled.statement nested _ _ _ _ (by simpa [Ending.text_append] using hread)
      (hended.append hending other) hmore
    simpa [Ending.text_append] using hspelled
  | openRule hbegins hended hne =>
    have hspelled := @Spelled.openRule nested _ (rest ++ other) (hbegins.append hended nofun other)
      (hended.append nofun other) hne
    simpa using hspelled
  | declaration hbegins hended hcases hcolon hident =>
    obtain ⟨hending, hmore⟩ := hline (hrest rfl) hcases
    have hspelled := Spelled.declaration (hbegins.append hended hending other)
      (hended.append hending other) hmore hcolon hident
    simpa [Ending.text_append] using hspelled

end Sheet.Item

end ScopedCss

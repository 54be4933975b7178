import ScopedCss.Proofs.Exports

/-!
# Scoped names do not collide

A name that a built-in strategy makes shows the start of the digest of its path, and besides that
the name it was made for or its index.  The two facts about one made name are

* `Strategy.eq_or_eq_of_generate_eq`: within a file, equal scoped names have the same name or the
  same index;
* `Strategy.digestStart_eq_of_generate_eq`: equal scoped names come from paths with the same start
  of the digest.

A run gives each of its names one index, so the first fact keeps the names of a run apart, and the
second the names of two files.
-/

namespace ScopedCss

/-! ## Names that a strategy makes -/

theorem toDigits_injective {first second : Nat}
    (h : Nat.toDigits 10 first = Nat.toDigits 10 second) : first = second := by
  have hvalue := congrArg (fun digits => Nat.ofDigitChars 10 digits 0) h
  simpa using hvalue

theorem digestStart_ne_nil (path : Option Text) : digestStart path ≠ [] := by
  rw [← List.length_pos_iff, length_digestStart]
  decide

namespace Strategy

/-- What stands in front of the digest in a short name. -/
def shortLead (path : Option Text) : Text :=
  if ((digestStart path).headD '_').isAlpha then [] else ['_']

theorem generate_short (name : Text) (path : Option Text) (index : Nat) :
    Strategy.short.generate name path index =
      shortLead path ++ (digestStart path ++ Nat.toDigits 10 index) := by
  rw [← List.append_assoc]
  rfl

/-- A short name begins with a letter exactly if there is nothing in front of its digest. -/
theorem isAlpha_head_short (path : Option Text) (rest : Text) :
    ((shortLead path ++ (digestStart path ++ rest)).headD '_').isAlpha = true ↔
      shortLead path = [] := by
  obtain ⟨c, tail, hstart⟩ := List.exists_cons_of_ne_nil (digestStart_ne_nil path)
  rw [shortLead, hstart, List.headD_cons]
  cases hc : c.isAlpha with
  | true => simp [hc]
  | false => simp

theorem shortLead_eq_nil_or (path : Option Text) :
    shortLead path = [] ∨ shortLead path = ['_'] := by
  rw [shortLead]
  split
  · exact .inl rfl
  · exact .inr rfl

/-- Two short names that are equal have the same lead, so their digests stand in the same place. -/
theorem shortLead_eq_of_append_eq {path path' : Option Text} {rest rest' : Text}
    (h : shortLead path ++ (digestStart path ++ rest) =
      shortLead path' ++ (digestStart path' ++ rest')) :
    shortLead path = shortLead path' := by
  have hiff : shortLead path = [] ↔ shortLead path' = [] := by
    rw [← isAlpha_head_short path rest, h, isAlpha_head_short]
  rcases shortLead_eq_nil_or path with hlead | hlead
  · rw [hlead, hiff.1 hlead]
  · rcases shortLead_eq_nil_or path' with hlead' | hlead'
    · rw [hlead', hiff.2 hlead']
    · rw [hlead, hlead']

/-- The start of the digest can be read off a scoped name. -/
theorem digestStart_eq_of_generate_eq {strategy : Strategy} {name name' : Text}
    {path path' : Option Text} {index index' : Nat}
    (h : strategy.generate name path index = strategy.generate name' path' index') :
    digestStart path = digestStart path' := by
  have hlength : (digestStart path).length = (digestStart path').length := by
    rw [length_digestStart, length_digestStart]
  cases strategy with
  | long =>
    -- The digest is at the end, whatever the name in front of it looks like.
    have hsuffix : ('_' :: digestStart path).length = ('_' :: digestStart path').length := by
      rw [List.length_cons, List.length_cons, hlength]
    exact (List.cons.inj (List.append_inj' h hsuffix).2).2
  | short =>
    rw [generate_short, generate_short] at h
    rw [shortLead_eq_of_append_eq h] at h
    exact (List.append_inj (List.append_cancel_left h) hlength).1

/-- In one file, equal scoped names were made for the same name or with the same index. -/
theorem eq_or_eq_of_generate_eq {strategy : Strategy} {name name' : Text} {path : Option Text}
    {index index' : Nat}
    (h : strategy.generate name path index = strategy.generate name' path index') :
    name = name' ∨ index = index' := by
  cases strategy with
  | long => exact .inl (List.append_cancel_right h)
  | short =>
    rw [generate_short, generate_short] at h
    have hdigits := List.append_cancel_left (List.append_cancel_left h)
    exact .inr (toDigits_injective hdigits)

/-- The scoped names of names without repetitions are all different. -/
theorem nodup_mapIdx_generate (strategy : Strategy) (path : Option Text) {names : List Text}
    (h : names.Nodup) :
    (names.mapIdx fun index name => strategy.generate name path index).Nodup := by
  rw [List.nodup_iff_injective_get]
  intro first second heq
  obtain ⟨first, hfirst⟩ := first
  obtain ⟨second, hsecond⟩ := second
  rw [List.length_mapIdx] at hfirst hsecond
  simp only [List.get_eq_getElem, List.getElem_mapIdx] at heq
  rw [Fin.mk.injEq]
  rcases eq_or_eq_of_generate_eq heq with hname | hindex
  · exact h.getElem_inj_iff.1 hname
  · exact hindex

end Strategy

/-! ## The scoped names of a run -/

/-- The scoped names that a run exports, in the order of their entries. -/
def ExportRecord.localNames (exports : ExportRecord) : List Text :=
  exports.locals.map fun pair => pair.2.localName

namespace Scoping

/-- The path that the generator of the options gets for a file. -/
def namingPath (options : Options) (path : Option Text) : Option Text :=
  path.map options.generatorPath

/-- A run that succeeds exports the scoped names that its generator makes for the names of the style
sheet, each with its index. -/
theorem exists_localNames {options : Options} {path : Option Text} {document : Document}
    (h : (run options path document).failure = none) :
    ∃ exports : ExportRecord,
      (run options path document).document.exports = document.exports ++ [exports] ∧
      exports.localNames = document.sheet.references.eraseDups.mapIdx fun index name =>
        options.generator name (namingPath options path) index := by
  obtain ⟨exports, hdocument, hlocals⟩ := exists_exports h
  refine ⟨exports, by rw [hdocument], ?_⟩
  have hpairs := map_localName_ofUses (namerFor options path)
    (sheetUses exports.rename document.sheet)
  rw [← hlocals, Registry.namesOf, map_name_sheetUses] at hpairs
  have hnames := congrArg (List.map Prod.snd) hpairs
  rw [List.map_map, List.mapIdx_eq_zipIdx_map, List.map_map] at hnames
  rw [List.mapIdx_eq_zipIdx_map]
  exact hnames

/-- Scoped names do not collide.  With a built-in strategy, the scoped names that a successful run
exports are all different, and none of them is exported by a run for a file whose path has another
start of the digest. -/
theorem localNames_apart (strategy : Strategy) {root root' path path' : Option Text}
    {document document' : Document}
    (h : (run ⟨strategy.generate, root⟩ path document).failure = none)
    (h' : (run ⟨strategy.generate, root'⟩ path' document').failure = none) :
    ∃ exports exports' : ExportRecord,
      (run ⟨strategy.generate, root⟩ path document).document.exports =
        document.exports ++ [exports] ∧
      (run ⟨strategy.generate, root'⟩ path' document').document.exports =
        document'.exports ++ [exports'] ∧
      exports.localNames.Nodup ∧
      (digestStart (namingPath ⟨strategy.generate, root⟩ path) ≠
          digestStart (namingPath ⟨strategy.generate, root'⟩ path') →
        exports.localNames.Disjoint exports'.localNames) := by
  obtain ⟨exports, hexports, hlocals⟩ := exists_localNames h
  obtain ⟨exports', hexports', hlocals'⟩ := exists_localNames h'
  refine ⟨exports, exports', hexports, hexports', ?_, ?_⟩
  · rw [hlocals]
    exact strategy.nodup_mapIdx_generate _ (Registry.nodup_eraseDups _)
  · intro hdigest made hmade hmade'
    rw [hlocals, List.mem_mapIdx] at hmade
    rw [hlocals', List.mem_mapIdx] at hmade'
    obtain ⟨index, _, hname⟩ := hmade
    obtain ⟨index', _, hname'⟩ := hmade'
    exact hdigest (Strategy.digestStart_eq_of_generate_eq (hname.trans hname'.symm))

theorem localNames_apart_sample :
    (run ⟨Strategy.short.generate, none⟩ none ⟨sampleSheet, []⟩).failure = none ∧
      (run ⟨Strategy.short.generate, some "lib".toList⟩ (some "lib/a.css".toList)
        ⟨sampleSheet, []⟩).failure = none ∧
      ∃ exports exports' : ExportRecord,
        (run ⟨Strategy.short.generate, none⟩ none ⟨sampleSheet, []⟩).document.exports =
          [exports] ∧
        (run ⟨Strategy.short.generate, some "lib".toList⟩ (some "lib/a.css".toList)
          ⟨sampleSheet, []⟩).document.exports = [exports'] ∧
        exports.localNames.Nodup ∧ exports.localNames.Disjoint exports'.localNames := by
  have h : (run ⟨Strategy.short.generate, none⟩ none ⟨sampleSheet, []⟩).failure = none := by
    rw [failure_run]
    decide +kernel
  have h' : (run ⟨Strategy.short.generate, some "lib".toList⟩ (some "lib/a.css".toList)
      ⟨sampleSheet, []⟩).failure = none := by
    rw [failure_run]
    decide +kernel
  obtain ⟨exports, exports', hexports, hexports', hnodup, hdisjoint⟩ := localNames_apart .short h h'
  exact ⟨h, h', exports, exports', hexports, hexports', hnodup, hdisjoint (by decide +kernel)⟩

end Scoping

end ScopedCss

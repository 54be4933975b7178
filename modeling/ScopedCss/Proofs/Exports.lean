import ScopedCss.Proofs.Runs

/-!
# What a successful run exports

The style sheet and the export record that a successful run leaves are functions of the style sheet
that it was given.

* The style sheet that is left is the substitution of the exported names; `exists_exports` also
  tells which registry the record is made from.
* The exported names are those that the style sheet refers to, in the order of their first
  reference.
-/

namespace ScopedCss

open Registry (Use Agrees ofUses)

/-- The renaming of an export record, which leaves names that are not exported. -/
def ExportRecord.rename (exports : ExportRecord) (name : Text) : Text :=
  (exports.localName? name).getD name

namespace Scoping

variable {options : Options} {path : Option Text} {document : Document}

/-- A style sheet with names of all four kinds:

    @keyframes  spin  {}
    .a, #b, .a { composes: c; animation-name: fade; animation: spin 1s fade c ease }
    .d:global(.e) > :not(.a) { & .f {} }
-/
def sampleSheet : Sheet :=
  [.block ⟨"keyframes".toList, " spin ".toList, none⟩ [],
    .rule ⟨".a, #b, .a".toList, none⟩
      [.declaration ⟨"composes".toList, "c".toList, false, none⟩,
        .declaration ⟨"animation-name".toList, "fade".toList, false, none⟩,
        .declaration ⟨"animation".toList, "spin 1s fade c ease".toList, false, none⟩],
    .rule ⟨".d:global(.e) > :not(.a)".toList, none⟩ [.rule ⟨"& .f".toList, none⟩ []]]

/-- A generator that makes a name from a name and its index. -/
def sampleOptions : Options :=
  ⟨fun name _ index => name ++ Nat.toDigits 10 index, none⟩

/-- A record of the registry that a run leaves has an entry for each name of the style sheet. -/
theorem lookup_of_locals_eq {exports : ExportRecord} {namer : Namer} {rename : Text → Text}
    {sheet : Sheet} (h : exports.locals = (ofUses namer (sheetUses rename sheet)).entries)
    (name : Text) :
    exports.locals.lookup name =
      if name ∈ sheet.references then
        some (Registry.entryOf namer (sheetUses rename sheet) name)
      else none := by
  have hfind := Registry.find?_ofUses namer (sheetUses rename sheet) name
  rwa [map_name_sheetUses, Registry.find?, ← h] at hfind

/-- The scoped names in a record of the registry that a run leaves. -/
theorem localName?_of_locals_eq {exports : ExportRecord} {namer : Namer} {rename : Text → Text}
    {sheet : Sheet} (h : exports.locals = (ofUses namer (sheetUses rename sheet)).entries)
    (name : Text) :
    exports.localName? name =
      if name ∈ sheet.references then some (sheetRenaming namer sheet name) else none := by
  rw [ExportRecord.localName?, lookup_of_locals_eq h]
  by_cases hname : name ∈ sheet.references
  · rw [if_pos hname, if_pos hname, ← scopedName_sheetUses namer sheet rename]
    rfl
  · rw [if_neg hname, if_neg hname]
    rfl

/-- The renaming of a record agrees with the registry that the record was made from. -/
theorem agrees_rename {exports : ExportRecord} {namer : Namer} {rename : Text → Text}
    {sheet : Sheet} (h : exports.locals = (ofUses namer (sheetUses rename sheet)).entries) :
    Agrees namer exports.rename (sheetUses exports.rename sheet) := by
  intro name hname
  rw [map_name_sheetUses] at hname
  rw [ExportRecord.rename, localName?_of_locals_eq h, if_pos hname, Option.getD_some,
    scopedName_sheetUses]

/-- A successful run adds one export record, and the renaming of this record is the one that the run
substitutes. -/
theorem exists_exports (h : (run options path document).failure = none) :
    ∃ exports : ExportRecord,
      (run options path document).document =
        ⟨document.sheet.substitute exports.rename, document.exports ++ [exports]⟩ ∧
      exports.locals =
        (ofUses (namerFor options path) (sheetUses exports.rename document.sheet)).entries := by
  -- The record comes from the renaming of the registry.  Seen with its own renaming, the run gives
  -- the same one.
  have hfirst := document_run h (agrees_sheetRenaming (namerFor options path) document.sheet _)
  generalize hexports : (ExportRecord.mk (ofUses (namerFor options path) (sheetUses
    (sheetRenaming (namerFor options path) document.sheet) document.sheet)).entries) = exports
    at hfirst
  have hagain := document_run h (agrees_rename (congrArg ExportRecord.locals hexports.symm))
  have hrecords := congrArg Document.exports (hfirst.symm.trans hagain)
  have hsame := List.singleton_inj.1 (List.append_cancel_left hrecords)
  refine ⟨exports, ?_, congrArg ExportRecord.locals hsame⟩
  rw [hagain, ← hsame]

/-! ## One substitution -/

theorem map_localName_ofUses (namer : Namer) (uses : List Use) :
    ((ofUses namer uses).entries.map fun pair => (pair.1, pair.2.localName)) =
      (Registry.namesOf uses).mapIdx fun index name => (name, namer name index) := by
  have hnodup : (Registry.namesOf uses).Nodup := Registry.nodup_eraseDups _
  rw [← Registry.map_idxOf_eq_mapIdx hnodup fun name index => (name, namer name index), ofUses,
    List.map_map]
  rfl

/-- The export record of a successful run has the names that the style sheet refers to, each at its
first reference, and a name gets its scoped name from its index among them.  A name that the style
sheet does not refer to is not exported. -/
theorem exports_in_reference_order (h : (run options path document).failure = none) :
    ∃ exports : ExportRecord,
      (run options path document).document.exports = document.exports ++ [exports] ∧
      (exports.locals.map fun pair => (pair.1, pair.2.localName)) =
        (document.sheet.references.eraseDups.mapIdx fun index name =>
          (name, options.generator name (path.map options.generatorPath) index)) ∧
      ∀ name, name ∉ document.sheet.references → exports.locals.lookup name = none := by
  obtain ⟨exports, hdocument, hlocals⟩ := exists_exports h
  refine ⟨exports, by rw [hdocument], ?_, ?_⟩
  · rw [hlocals, map_localName_ofUses, Registry.namesOf, map_name_sheetUses]
    rfl
  · intro name hname
    rw [lookup_of_locals_eq hlocals, if_neg hname]

theorem exports_in_reference_order_sample :
    (run sampleOptions none ⟨sampleSheet, []⟩).failure = none ∧
      ∃ exports : ExportRecord,
        (run sampleOptions none ⟨sampleSheet, []⟩).document.exports = [exports] ∧
        (exports.locals.map fun pair => (pair.1, pair.2.localName)) =
          (sampleSheet.references.eraseDups.mapIdx fun index name =>
            (name, sampleOptions.generator name none index)) ∧
        ∀ name, name ∉ sampleSheet.references → exports.locals.lookup name = none :=
  ⟨by decide +kernel, exports_in_reference_order (by decide +kernel)⟩

end Scoping

end ScopedCss

import Mathlib.Data.List.Induction
import ScopedCss.Naming
import ScopedCss.Proofs.RegistryUses

/-!
# Sessions with a registry

A session is a sequence of calls on a registry that is empty at first.  Some calls use a name and
may make an entry for it, the others only look something up.  A session keeps the index for the next
new name in a counter of its own, so three things have to stay in step: the counter, the order of the
entries and what they hold.

* `InStep` is the invariant: the counter is the number of entries, and the registry is the one that
  the uses so far lead to.  `InStep.call` is one call and `inStep_run` a whole session.
* `ofUses_growsTo` compares two points of a session: what is there stays where it is, and
  compositions are only added at the end.
-/

namespace ScopedCss.Registry

/-! ## Calls and their answers -/

/-- A question to a registry. -/
inductive Lookup where
  /-- What is the entry of the name? -/
  | entry (name : Text)
  /-- Has the name an entry? -/
  | contains (name : Text)
  /-- How many entries are there? -/
  | size
  /-- Which entries are there? -/
  | entries
deriving Repr, DecidableEq

/-- An answer of a registry. -/
inductive Answer where
  | entry (found : Option Entry)
  | contains (holds : Bool)
  | size (count : Nat)
  | entries (found : List (Text × Entry))
deriving Repr, DecidableEq

/-- What the registry answers to a lookup. -/
def answer (registry : Registry) : Lookup → Answer
  | .entry name => .entry (registry.find? name)
  | .contains name => .contains (registry.contains name)
  | .size => .size registry.size
  | .entries => .entries registry.entries

/-- The registry behind a use. -/
def use (namer : Namer) (registry : Registry) : Use → Registry
  | .refer name => registry.register namer name
  | .add name composition => registry.compose namer name composition

/-- What the registry answers to a use: a reference gets the entry of its name. -/
def reply? (namer : Namer) (registry : Registry) : Use → Option Answer
  | .refer name => some (.entry (some (registry.entry namer name)))
  | .add _ _ => none

/-- A call of a session. -/
inductive Call where
  | use (made : Use)
  | look (lookup : Lookup)
deriving Repr, DecidableEq

namespace Call

/-- The use that a call makes of the registry. -/
def use? : Call → Option Use
  | .use made => some made
  | .look _ => none

/-- The name that a call uses. -/
def name? (call : Call) : Option Text :=
  call.use?.map Use.name

/-- The composition that a call adds to `target`. -/
def addedTo? (target : Text) (call : Call) : Option Composition :=
  call.use?.bind (Use.addedTo? target)

/-- The question that a call asks.  A reference asks for the entry that the name has behind it, and
adding a composition asks for nothing. -/
def lookup? : Call → Option Lookup
  | .use (.refer name) => some (.entry name)
  | .use (.add _ _) => none
  | .look lookup => some lookup

end Call

/-! ## Sessions -/

/-- A registry in use, with the index for the next new name and the answers given so far. -/
structure Session where
  registry : Registry
  nextIndex : Nat
  answers : List Answer
deriving Repr, DecidableEq

namespace Session

/-- No call has been made. -/
def start : Session := ⟨.empty, 0, []⟩

/-- Makes scoped names with the index of the session, whatever the registry holds. -/
def counted (namer : Namer) (session : Session) : Namer :=
  fun name _ => namer name session.nextIndex

/-- The counter behind a use of a name. -/
def indexAfter (session : Session) (name : Text) : Nat :=
  if session.registry.contains name then session.nextIndex else session.nextIndex + 1

/-- Makes a call. -/
def call (namer : Namer) (session : Session) : Call → Session
  | .use made =>
    ⟨session.registry.use (session.counted namer) made, session.indexAfter made.name,
      session.answers ++ (session.registry.reply? (session.counted namer) made).toList⟩
  | .look lookup =>
    { session with answers := session.answers ++ [session.registry.answer lookup] }

/-- The session that makes the calls one after the other. -/
def run (namer : Namer) (calls : List Call) : Session :=
  calls.foldl (call namer) start

theorem run_concat (namer : Namer) (calls : List Call) (last : Call) :
    run namer (calls ++ [last]) = (run namer calls).call namer last :=
  List.foldl_concat _ _ _ _

end Session

/-! ## The counter, the entries and the uses -/

/-- A use of a registry that other uses led to is one more use. -/
theorem use_ofUses (namer : Namer) (uses : List Use) (made : Use) :
    (ofUses namer uses).use namer made = ofUses namer (uses ++ [made]) := by
  cases made with
  | refer name => exact register_ofUses namer uses name
  | add name composition => exact compose_ofUses namer uses name composition

/-- The counter of the session is the number of its entries, and these are the ones that the uses
lead to. -/
structure InStep (namer : Namer) (session : Session) (uses : List Use) : Prop where
  index : session.nextIndex = session.registry.size
  registry : session.registry = ofUses namer uses

section Step

variable {namer : Namer} {session : Session} {uses : List Use}

/-- A counter that is in step gives the index that the registry would give itself. -/
theorem InStep.use_counted (h : InStep namer session uses) (made : Use) :
    session.registry.use (session.counted namer) made = session.registry.use namer made := by
  have hregister : ∀ name, session.registry.register (session.counted namer) name =
      session.registry.register namer name := by
    intro name
    rw [register, register, newEntry, newEntry, Session.counted, h.index]
  cases made with
  | refer name => exact hregister name
  | add name composition => rw [use, use, compose, compose, hregister]

/-- The counter goes up exactly if an entry is made. -/
theorem InStep.indexAfter (h : InStep namer session uses) (made : Use) :
    session.indexAfter made.name = (ofUses namer (uses ++ [made])).size := by
  have hsize : ∀ uses, (ofUses namer uses).size = (namesOf uses).length := by
    intro uses
    rw [size, ofUses, List.length_map]
  have hcontains : session.registry.contains made.name = true ↔ made.name ∈ namesOf uses := by
    rw [h.registry, contains_ofUses, mem_namesOf]
  rw [Session.indexAfter, h.index, h.registry, hsize, hsize, namesOf_append_singleton, ← h.registry]
  by_cases hmem : made.name ∈ namesOf uses
  · rw [if_pos (hcontains.2 hmem), if_pos hmem]
  · rw [if_neg fun hc => hmem (hcontains.1 hc), if_neg hmem, List.length_append,
      List.length_singleton]

/-- One call keeps a session in step. -/
theorem InStep.call (h : InStep namer session uses) (call : Call) :
    InStep namer (session.call namer call) (uses ++ call.use?.toList) := by
  cases call with
  | look lookup =>
    show InStep namer { session with answers := _ } (uses ++ [])
    rw [List.append_nil]
    exact ⟨h.index, h.registry⟩
  | use made =>
    have hregistry : session.registry.use (session.counted namer) made =
        ofUses namer (uses ++ [made]) := by
      rw [h.use_counted, h.registry, use_ofUses]
    refine ⟨?_, hregistry⟩
    show session.indexAfter made.name = size (session.registry.use _ made)
    rw [hregistry]
    exact h.indexAfter made

end Step

/-- A whole session is in step with the uses that it makes. -/
theorem inStep_run (namer : Namer) (calls : List Call) :
    InStep namer (Session.run namer calls) (calls.filterMap Call.use?) := by
  induction calls using List.reverseRecOn with
  | nil => exact ⟨rfl, rfl⟩
  | append_singleton calls last ih =>
    rw [Session.run_concat, List.filterMap_append]
    have hlast : [last].filterMap Call.use? = last.use?.toList := by
      cases last <;> rfl
    rw [hlast]
    exact ih.call last

/-! ## What the calls lead to -/

theorem namesOf_filterMap_use? (calls : List Call) :
    namesOf (calls.filterMap Call.use?) = (calls.filterMap Call.name?).eraseDups := by
  rw [namesOf, List.map_filterMap]
  rfl

theorem filterMap_addedTo?_filterMap_use? (calls : List Call) (target : Text) :
    (calls.filterMap Call.use?).filterMap (Use.addedTo? target) =
      calls.filterMap (Call.addedTo? target) := by
  rw [List.filterMap_filterMap]
  rfl

/-- The entries by their places. -/
theorem entries_ofUses (namer : Namer) (uses : List Use) :
    (ofUses namer uses).entries = (namesOf uses).mapIdx fun index name =>
      (name, ⟨namer name index, uses.filterMap (Use.addedTo? name)⟩) :=
  map_idxOf_eq_mapIdx (nodup_eraseDups _) fun name index =>
    (name, Entry.mk (namer name index) (uses.filterMap (Use.addedTo? name)))

/-- The later registry has the entries of the earlier one at the same places.  Their scoped names
are the same, and compositions were only added at the end. -/
def GrowsTo (earlier later : Registry) : Prop :=
  ∀ (index : Nat) (name : Text) (entry : Entry), earlier.entries[index]? = some (name, entry) →
    ∃ added, later.entries[index]? =
      some (name, { entry with composes := entry.composes ++ added })

/-- Further uses add compositions to the end of an entry and leave the rest of it as it is. -/
theorem entryOf_append (namer : Namer) {uses : List Use} {name : Text} (more : List Use)
    (h : name ∈ uses.map Use.name) :
    entryOf namer (uses ++ more) name =
      { entryOf namer uses name with
        composes := (entryOf namer uses name).composes ++ more.filterMap (Use.addedTo? name) } := by
  rw [entryOf, scopedName_append namer more h, List.filterMap_append]
  rfl

theorem ofUses_growsTo (namer : Namer) (uses more : List Use) :
    (ofUses namer uses).GrowsTo (ofUses namer (uses ++ more)) := by
  intro index name entry h
  rw [ofUses, List.getElem?_map, Option.map_eq_some_iff] at h
  obtain ⟨other, hother, hpair⟩ := h
  obtain ⟨rfl, rfl⟩ := Prod.mk.inj hpair
  have hmem : other ∈ uses.map Use.name := mem_namesOf.1 (List.mem_of_getElem? hother)
  have hplace : (namesOf (uses ++ more))[index]? = some other := by
    have hlt : index < (namesOf uses).length := (List.getElem?_eq_some_iff.1 hother).1
    have hnames : (namesOf (uses ++ more))[index]? = (namesOf uses)[index]? := by
      rw [namesOf, List.map_append, List.eraseDups_append]
      exact List.getElem?_append_left hlt
    rw [hnames, hother]
  refine ⟨more.filterMap (Use.addedTo? other), ?_⟩
  rw [← entryOf_append namer more hmem, ofUses, List.getElem?_map, hplace]
  rfl

/-! ## Answers -/

/-- A reference is answered with the entry that the name has behind it. -/
theorem find?_register (namer : Namer) (registry : Registry) (name : Text) :
    (registry.register namer name).find? name = some (registry.entry namer name) := by
  rw [register, entry]
  by_cases h : registry.contains name = true
  · rw [if_pos h]
    obtain ⟨found, hfound⟩ := Option.isSome_iff_exists.1 h
    rw [hfound, Option.getD_some]
  · have hnone : registry.find? name = none := Option.not_isSome_iff_eq_none.1 h
    rw [if_neg h, hnone, Option.getD_none]
    rw [find?] at hnone ⊢
    rw [List.lookup_append, hnone]
    simp

/-- Each call is answered from the registry that it leaves. -/
theorem answers_call (namer : Namer) (session : Session) (call : Call) :
    (session.call namer call).answers = session.answers ++
      (call.lookup?.map (session.call namer call).registry.answer).toList := by
  cases call with
  | look lookup => rfl
  | use made =>
    cases made with
    | add name composition => rfl
    | refer name =>
      show session.answers ++ [_] = session.answers ++ [answer (register _ _ name) (.entry name)]
      rw [answer, find?_register]

/-! ## Sessions follow their calls -/

theorem registry_run (namer : Namer) (calls : List Call) :
    (Session.run namer calls).registry = ofUses namer (calls.filterMap Call.use?) :=
  (inStep_run namer calls).registry

/-- The entries of a session can be read off its calls: the names in the order of their first uses,
the scoped name that the generator makes for the place of the name, and the compositions that were
added to the name, in their order.  The counter has passed as many names, and a use does
what it does to a registry that counts its entries.  A lookup changes nothing for the calls behind
it, and every call is answered from the registry that it leaves.  What the session holds in between
stays: later entries come behind, and later compositions at the end. -/
theorem session_follows_calls (generator : Generator) (path : Option Text)
    (front back : List Call) :
    let namer : Namer := fun name index => generator name path index
    let session := Session.run namer
    let names := ((front ++ back).filterMap Call.name?).eraseDups
    ((session (front ++ back)).registry.entries = names.mapIdx fun index name =>
      (name, ⟨generator name path index, (front ++ back).filterMap (Call.addedTo? name)⟩)) ∧
    (session (front ++ back)).nextIndex = names.length ∧
    (∀ made, (session (front ++ [.use made])).registry = (session front).registry.use namer made) ∧
    (∀ lookup, (session (front ++ .look lookup :: back)).registry =
      (session (front ++ back)).registry) ∧
    (∀ call, (session (front ++ [call])).answers = (session front).answers ++
      (call.lookup?.map (session (front ++ [call])).registry.answer).toList) ∧
    (session front).registry.GrowsTo (session (front ++ back)).registry := by
  intro namer session names
  have hentries : (session (front ++ back)).registry.entries = names.mapIdx fun index name =>
      (name, ⟨generator name path index, (front ++ back).filterMap (Call.addedTo? name)⟩) := by
    rw [registry_run, entries_ofUses, namesOf_filterMap_use?]
    simp only [filterMap_addedTo?_filterMap_use?]
    rfl
  refine ⟨hentries, ?_, ?_, ?_, ?_, ?_⟩
  · rw [(inStep_run _ _).index, size, hentries, List.length_mapIdx]
  · intro made
    rw [registry_run, registry_run, List.filterMap_append, use_ofUses]
    rfl
  · intro lookup
    rw [registry_run, registry_run, List.filterMap_append, List.filterMap_append]
    rfl
  · intro call
    have hanswers := answers_call namer (session front) call
    rw [← Session.run_concat] at hanswers
    exact hanswers
  · rw [registry_run, registry_run, List.filterMap_append]
    exact ofUses_growsTo _ _ _

-- Names that get the same scoped name keep entries of their own.
example :
    (Session.run (fun _ _ => ['x']) [.use (.refer ['a']), .use (.add ['b'] (.global ['g'])),
      .look (.contains ['c']), .use (.add ['a'] (.global ['h'])), .look .size]) =
    ⟨⟨[(['a'], ⟨['x'], [.global ['h']]⟩), (['b'], ⟨['x'], [.global ['g']]⟩)]⟩, 2,
      [.entry (some ⟨['x'], []⟩), .contains false, .size 2]⟩ := by
  decide

end ScopedCss.Registry

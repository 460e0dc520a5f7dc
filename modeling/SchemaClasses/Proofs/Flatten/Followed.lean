import SchemaClasses.Proofs.Flatten.Growth
import SchemaClasses.Proofs.Json.References
import SchemaClasses.Proofs.Json.Throughout

/-!
# References that can be followed

Main statement (`flattenWithin_ne_invalidRef`): if every reference of a document leads to a value,
then flattening it never fails for a reference that leads nowhere.

The walk follows references that do not stand in the document as well: a merge puts them into other
schemas, and what it has listed it refers to by pointers of its own. Each of them is either one of
the document or the pointer of a listed place (`LeadsOn`). A schema that leaves the table again is
the last one, so nothing refers to it yet, and whatever is known holds of the places before it; the
framework of `Invariant.Kept` already says so. A merge makes up no reference, whichever side a
reference comes from (`throughout_merge`).
-/

namespace SchemaClasses.Flatten

section Leading

variable {document : Json} {keys more : List SchemaPath} {key : String} {value : Json}

/-- Whether a text is a pointer to a listed place or to a value of the document. -/
def Leads (document : Json) (keys : List SchemaPath) (text : String) : Prop :=
  ∃ path, SchemaPath.ofPointer text = .ok path ∧ (path ∈ keys ∨ (document.at? path).isSome)

/-- Whether an entry of an object leads somewhere if it is a reference. -/
def LeadsOn (document : Json) (keys : List SchemaPath) (key : String) (value : Json) : Prop :=
  key = refKey → ∀ text, value = .str text → Leads document keys text

/-- Whether all references in a value lead somewhere. -/
abbrev AllLead (document : Json) (keys : List SchemaPath) : Json → Prop :=
  Json.Throughout (LeadsOn document keys)

/-- A reference whose target is found is not lost. -/
theorem Leads.findSchema_ne_error {schemas : FlatSchemas} {text pointer : String} {reason : DeadEnd}
    (h : Leads document (Assoc.keys schemas) text) :
    findSchema document schemas (.unresolved text) ≠ .error (.invalidRef pointer reason) := by
  obtain ⟨path, htext, hfound⟩ := h
  have hnames : Names (.unresolved text) path := htext
  rw [findSchema_of_names document schemas hnames]
  cases hentry : Assoc.find? schemas path with
  | some entry => nofun
  | none =>
    have hsome := hfound.resolve_left (Assoc.find?_eq_none_iff.mp hentry)
    obtain ⟨schema, hschema⟩ := Option.isSome_iff_exists.mp hsome
    rw [hschema]
    nofun

/-- An object under a key is no reference. -/
theorem leadsOn_obj (key : String) (entries : Entries) : LeadsOn document keys key (.obj entries) :=
  fun _ => nofun

/-- What stands under another key than `$ref` is no reference. -/
theorem leadsOn_of_ne (h : key ≠ refKey) (value : Json) : LeadsOn document keys key value :=
  fun hkey => absurd hkey h

/-- References that lead somewhere still do when more places are listed. -/
theorem AllLead.mono (hsubset : keys ⊆ more) (h : AllLead document keys value) :
    AllLead document more value := by
  refine Json.Throughout.mono (fun key value hleads hkey text hvalue => ?_) h
  obtain ⟨path, htext, hfound⟩ := hleads hkey text hvalue
  exact ⟨path, htext, hfound.imp_left fun hmem => hsubset hmem⟩

/-- The schema that refers to a listed place. -/
theorem allLead_toSchema {path : SchemaPath} (h : path ∈ keys) :
    AllLead document keys (Reference.canonical path).toSchema := by
  refine Json.throughout_toSchema fun _ text htext => ?_
  obtain rfl := Json.str.inj htext
  exact ⟨path, path.ofPointer_toPointer, .inl h⟩

/-- The text of a reference in a value whose references lead somewhere leads somewhere. -/
theorem AllLead.of_textRef? {node : Entries} {text : String}
    (h : AllLead document keys (.obj node)) (htext : textRef? node = some text) :
    Leads document keys text := by
  have hentry := Assoc.mem_of_find? (textRef?_eq_some_iff.mp htext)
  exact (h.of_mem hentry).1 rfl text rfl

end Leading

/-! ### The walk -/

/-- What is known at all stages of the walk: all references lead to listed places or to values of
the document. What has become of a schema is no text, so that no name of a table of schemas can be
taken for a reference. -/
def leading (document : Json) : Invariant where
  raw keys _ schema := AllLead document keys schema
  folding keys _ _ pending node := AllLead document keys (.obj node) ∧
    ∀ entry ∈ pending.members, AllLead document keys entry.2
  left keys _ _ walked := AllLead document keys walked.toJson ∧ ∀ text, walked.toJson ≠ .str text
  listed keys _ entry := AllLead document keys (.obj entry)

variable {document : Json}

/-- What has become of a table of members. -/
theorem allLead_of_flat {keys : List SchemaPath} {path : SchemaPath} {keyword : String}
    {members flat : Entries} (hflat : (leading document).Flat keys path keyword members flat)
    (hmembers : AllLead document keys (.obj members)) : AllLead document keys (.obj flat) := by
  apply Json.throughout_obj.mpr
  constructor
  · exact hflat.keys_eq ▸ hmembers.nodup
  · intro entry hentry
    obtain ⟨_, _, walked, ⟨hleads, hnoText⟩, hvalue⟩ := hflat.exists_of_mem hentry
    rw [hvalue]
    exact ⟨fun _ text htext => absurd htext (hnoText text), hleads⟩

/-- The walk of a document whose references lead somewhere keeps to references that do. -/
theorem leading_kept (hdocument : AllLead document [] document) :
    (leading document).Kept document where
  raw_mono hsubset h := AllLead.mono hsubset h
  folding_mono hsubset h := ⟨h.1.mono hsubset, fun entry hentry => (h.2 entry hentry).mono hsubset⟩
  left_mono hsubset h := ⟨h.1.mono hsubset, h.2⟩
  listed_mono hsubset h := AllLead.mono hsubset h
  target _ _ _ _ hschema := AllLead.mono (List.nil_subset _) (hdocument.of_at? hschema)
  follow _ _ _ _ _ _ hwalked := hwalked
  refer _ _ _ hlisted _ := ⟨allLead_toSchema hlisted, nofun⟩
  reference hlisted _ := ⟨allLead_toSchema hlisted, nofun⟩
  bool _ := ⟨Json.throughout_bool _, nofun⟩
  other h _ _ := ⟨h, nofun⟩
  array h _ _ _ := ⟨h, nofun⟩
  items h _ _ hitems := by
    have hnode : AllLead _ _ (.obj _) := h
    exact hnode.of_find? hitems
  array_items h _ _ _ hwalked := by
    have hnode : AllLead _ _ (.obj _) := h
    exact ⟨hnode.insert (leadsOn_of_ne (by decide) _) hwalked.1, nofun⟩
  start h _ _ := ⟨h, fun _ hentry => absurd hentry List.not_mem_nil⟩
  skip _ h _ := h
  drop _ h hmembers := by
    refine ⟨h.1.swapErase _, fun entry hentry => ?_⟩
    exact Json.throughout_arr.mp (h.1.of_find? hmembers) _ (mem_of_mem_memberPlaces hentry)
  member h := h.2 _ List.mem_cons_self
  merge {keys path origin place member others rest node source} h hsource hagree := by
    have hsource : AllLead document keys (.obj source) := by
      rcases hsource with ⟨walked, -, hleft, hwalked⟩ | hlisted
      · exact hwalked ▸ hleft.1
      · exact hlisted
    exact ⟨throughout_merge leadsOn_obj (leadsOn_of_ne (by decide)) (leadsOn_of_ne (by decide))
      hagree h.1 hsource, fun entry hentry => h.2 entry (List.mem_cons_of_mem _ hentry)⟩
  pass h _ _ := ⟨h.1, fun entry hentry => h.2 entry (List.mem_cons_of_mem _ hentry)⟩
  property h _ hmembers hentry := ((h.1.of_find? hmembers).of_mem hentry).2
  list h _ hmembers hflat :=
    h.1.insert (leadsOn_obj _ _) (allLead_of_flat hflat (h.1.of_find? hmembers))
  patterns h _ hmembers hflat :=
    ⟨h.1.insert (leadsOn_obj _ _) (allLead_of_flat hflat (h.1.of_find? hmembers)), nofun⟩
  bare h _ _ := ⟨h.1, nofun⟩

/-- A walk that keeps to references that lead somewhere does not fail for a dangling one. -/
theorem leading_averts (document : Json) : (leading document).Averts document
    fun error => ∀ pointer reason, error ≠ .invalidRef pointer reason where
  other _ h := h
  lost h htext hlost := absurd hlost (AllLead.of_textRef? h htext).findSchema_ne_error

/-- All references of a document lead to values if those do that stand in it. -/
theorem allLead_of_refs (hwf : document.wellFormed)
    (hrefs : ∀ place text, (place, text) ∈ document.refs →
      ∃ path, SchemaPath.ofPointer text = .ok path ∧ (document.at? path).isSome) :
    AllLead document [] document := by
  refine Json.throughout_of_wellFormed hwf ?_
  rintro place entries hstands ⟨key, value⟩ hentry rfl text rfl
  obtain ⟨path, hpath, hsome⟩ := hrefs place text (Json.mem_refs_of_mem hwf hstands hentry)
  exact ⟨path, hpath, .inr hsome⟩

/-- Flattening a document whose references all lead to values never meets a reference that leads
nowhere. -/
theorem flattenWithin_ne_invalidRef (hwf : document.wellFormed)
    (hrefs : ∀ place text, (place, text) ∈ document.refs →
      ∃ path, SchemaPath.ofPointer text = .ok path ∧ (document.at? path).isSome)
    (depth : Nat) (pointer : String) (reason : DeadEnd) :
    flattenWithin depth document ≠ .error (.invalidRef pointer reason) := by
  have hleads := allLead_of_refs hwf hrefs
  intro herror
  exact fail_of_flattenWithin (leading_kept hleads) (leading_averts document) hleads herror pointer
    reason rfl

end SchemaClasses.Flatten

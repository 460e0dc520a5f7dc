import SchemaClasses.Model.ClassName

/-!
# Names of the classes of elements

The elements of a list stand at `items` below the schema of the list, the values of a map at
`patternProperties` and a pattern. Main statement (`ClassName.base_elements`): however deep such
elements lie below a member of `properties` or `definitions`, their class has the base name of the
member.

* The search for a base name goes up from the end of a place. One step from a schema to its elements
  ends in a keyword or in a pattern, and neither of the two tells anything
  (`ClassName.baseOfReversed?_step`).
* Keywords are told from names by the segment above them only. A member that is itself called
  `properties`, or a pattern of that spelling, makes a name of the keyword below it, so the
  statement asks that no keyword of the steps stands below such a segment
  (`ClassName.Unmistaken`).
-/

namespace SchemaClasses.ClassName

/-- A step from a schema to the schema of its elements. -/
inductive ElementStep where
  /-- To the elements of a list. -/
  | items
  /-- To the values whose keys match a pattern. -/
  | pattern (text : String)
  deriving DecidableEq, Repr

namespace ElementStep

/-- The keyword that the step begins with. -/
def keyword : ElementStep → String
  | items => "items"
  | pattern _ => "patternProperties"

/-- What follows the keyword. -/
def argument : ElementStep → List String
  | items => []
  | pattern text => [text]

/-- The segments of the step. -/
def segments (step : ElementStep) : List String :=
  step.keyword :: step.argument

/-- The segment that the step ends with, which the keyword of a next step stands below. -/
def last : ElementStep → String
  | items => "items"
  | pattern text => text

/-- The keyword of a step says how schemas are nested and nothing else. -/
theorem isStructural_keyword (step : ElementStep) : isStructural step.keyword = true := by
  cases step <;> simp [keyword, isStructural]

/-- The segments of a step end with its last one. -/
theorem exists_segments (step : ElementStep) : ∃ front, step.segments = front ++ [step.last] := by
  cases step with
  | items => exact ⟨[], rfl⟩
  | pattern text => exact ⟨["patternProperties"], rfl⟩

end ElementStep

/-- The segments of some steps, one after the other. -/
def route (steps : List ElementStep) : List String :=
  steps.flatMap ElementStep.segments

/-- No keyword of the steps stands directly below a segment with the spelling of `properties` or
`definitions`, where `above` is the segment before the steps. -/
def Unmistaken (above : String) : List ElementStep → Prop
  | [] => True
  | step :: rest => isContainer above = false ∧ Unmistaken step.last rest

/-! ### The search passes over the steps -/

/-- A keyword below a segment that is no container tells nothing. -/
theorem isTelling_keyword (step : ElementStep) {above : String} (h : isContainer above = false) :
    isTelling step.keyword (some above) = false := by
  simp [isTelling, h, step.isStructural_keyword]

/-- A pattern tells nothing. -/
theorem isTelling_pattern (text : String) :
    isTelling text (some (ElementStep.pattern text).keyword) = false := by
  simp [isTelling, ElementStep.keyword, isContainer]

/-- One more step does not change what is found. -/
theorem baseOfReversed?_step (step : ElementStep) {above : String} {rest : List String}
    (h : isContainer above = false) :
    baseOfReversed? (step.segments.reverse ++ above :: rest) = baseOfReversed? (above :: rest) := by
  have hkeyword : baseOfReversed? (step.keyword :: above :: rest)
      = baseOfReversed? (above :: rest) := by
    rw [baseOfReversed?]
    simp [isTelling_keyword step h]
  cases step with
  | items => exact hkeyword
  | pattern text =>
    have hpattern := isTelling_pattern text
    change baseOfReversed? (text :: (ElementStep.pattern text).keyword :: above :: rest) = _
    rw [baseOfReversed?]
    simp [hpattern, hkeyword]

/-- Any number of steps do not change what is found. -/
theorem baseOfReversed?_route {above : String} {steps : List ElementStep}
    (h : Unmistaken above steps) (front : List String) :
    baseOfReversed? (front ++ above :: route steps).reverse
      = baseOfReversed? (front ++ [above]).reverse := by
  induction steps generalizing above front with
  | nil => rfl
  | cons step rest ih =>
    obtain ⟨hcontainer, hrest⟩ := h
    obtain ⟨inner, hinner⟩ := step.exists_segments
    calc baseOfReversed? (front ++ above :: route (step :: rest)).reverse
        = baseOfReversed? ((front ++ above :: inner) ++ step.last :: route rest).reverse := by
          simp [route, hinner]
      _ = baseOfReversed? ((front ++ above :: inner) ++ [step.last]).reverse := ih hrest _
      _ = baseOfReversed? (step.segments.reverse ++ above :: front.reverse) := by
          simp [hinner]
      _ = baseOfReversed? (front ++ [above]).reverse := by
          simpa using baseOfReversed?_step step hcontainer

/-! ### Members and their elements -/

/-- A member of `properties` or `definitions` is named after its own name, if anything of that can
stand in the name of a class. -/
theorem baseOfReversed?_member {container : String} (h : isContainer container = true)
    (name : String) (front : List String) :
    baseOfReversed? (front ++ [container, name]).reverse
      = if upperCamel (afterLastSlash name) = "" then none
        else some (upperCamel (afterLastSlash name)) := by
  have htelling : isTelling name (some container) = true := by simp [isTelling, h]
  simp [baseOfReversed?, htelling]

/-- A place has the base name that its segments read backwards give. -/
theorem base_of_eq_some {path : SchemaPath} {className : String}
    (h : baseOfReversed? path.segments.reverse = some className) : base path = .ok className := by
  simp [base, h]

/-- If the segments of a place give no base name, that is reported with the place. -/
theorem base_of_eq_none {path : SchemaPath} (h : baseOfReversed? path.segments.reverse = none) :
    base path = .error (.noClassName path) := by
  simp [base, h]

/-- The elements of a member of `properties` or `definitions`, however deep they lie below it, have
the base name of the member; if it has none, then they have none either, and each is reported with
its own place. -/
theorem base_elements (path : SchemaPath) {container : String} (hcontainer : isContainer container)
    (name : String) (steps : List ElementStep) (h : Unmistaken name steps) :
    (∃ className,
      base (path ++ [container, name]) = .ok className ∧
      base (path ++ [container, name] ++ route steps) = .ok className) ∨
    (base (path ++ [container, name]) = .error (.noClassName (path ++ [container, name])) ∧
      base (path ++ [container, name] ++ route steps)
        = .error (.noClassName (path ++ [container, name] ++ route steps))) := by
  have hmember := baseOfReversed?_member hcontainer name path.segments
  have hsteps : baseOfReversed? (path.segments ++ [container, name] ++ route steps).reverse
      = baseOfReversed? (path.segments ++ [container, name]).reverse := by
    simpa using baseOfReversed?_route h (path.segments ++ [container])
  by_cases hempty : upperCamel (afterLastSlash name) = ""
  · rw [if_pos hempty] at hmember
    exact .inr ⟨base_of_eq_none hmember, base_of_eq_none (hsteps.trans hmember)⟩
  · rw [if_neg hempty] at hmember
    exact .inl ⟨_, base_of_eq_some hmember, base_of_eq_some (hsteps.trans hmember)⟩

/-- The values of a map of lists of maps are named after the property that holds the outer map. -/
theorem base_elements_labels :
    Unmistaken "labels" [.pattern ".*", .items, .pattern "^a"] ∧
    base (SchemaPath.root ++ ["properties", "labels"] ++
      route [.pattern ".*", .items, .pattern "^a"]) = .ok "Labels" := by
  have hsteps : Unmistaken "labels" [.pattern ".*", .items, .pattern "^a"] := by
    simp [Unmistaken, ElementStep.last, isContainer]
  have hname : base (SchemaPath.root ++ ["properties", "labels"]) = .ok "Labels" :=
    base_of_eq_some (by decide +kernel)
  refine ⟨hsteps, ?_⟩
  have hcontainer : isContainer "properties" := by decide
  rcases base_elements .root hcontainer "labels" _ hsteps with
    ⟨className, hmember, helement⟩ | h
  · rw [hname] at hmember
    rw [helement, ← hmember]
  · rw [hname] at h
    cases h.1

/-- What the condition on the steps is for, and why the two errors are not the same: below a
property called `properties` the keyword is taken for a name, and without a name each place is
reported as itself. -/
theorem base_elements_mistaken :
    ¬ (∀ (path : SchemaPath) (container name : String) (steps : List ElementStep),
        isContainer container →
        base (path ++ [container, name] ++ route steps) = base (path ++ [container, name])) ∧
    base ⟨["properties", "properties"]⟩ = .ok "Properties" ∧
    base ⟨["properties", "properties", "items"]⟩ = .ok "Items" ∧
    base ⟨["properties", "__"]⟩ = .error (.noClassName ⟨["properties", "__"]⟩) ∧
    base ⟨["properties", "__", "items"]⟩
      = .error (.noClassName ⟨["properties", "__", "items"]⟩) := by
  have hproperties : base ⟨["properties", "properties"]⟩ = .ok "Properties" :=
    base_of_eq_some (by decide +kernel)
  have hitems : base ⟨["properties", "properties", "items"]⟩ = .ok "Items" :=
    base_of_eq_some (by decide +kernel)
  refine ⟨fun hall => ?_, hproperties, hitems, base_of_eq_none (by decide +kernel),
    base_of_eq_none (by decide +kernel)⟩
  have hsame : base ⟨["properties", "properties", "items"]⟩
      = base ⟨["properties", "properties"]⟩ :=
    hall .root "properties" "properties" [.items] (by decide)
  rw [hproperties, hitems] at hsame
  exact absurd (Except.ok.inj hsame) (by decide)

end SchemaClasses.ClassName

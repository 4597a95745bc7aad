import TrajProxy.Parsers.ToolText

/-! `find_tool_properties`, `extract_types_from_schema` and `coerce_to_schema_type`: the
text of a parameter as a value of the type its schema has. -/

namespace TrajProxy.Parsers

/-- What `float` makes of a text it can read, as far as `int` tells the values apart. -/
inductive FloatValue
  | notANumber
  | infinite
  | whole (n : Int)
  | fraction (bits : UInt64)

/-- `int` and `float` of a text; `none` is their `ValueError`. -/
structure PyNumbers where
  int : List Char → Option Int
  float : List Char → Option FloatValue

structure FunctionTool where
  name : List Char
  parameters : Option Json

/-- `find_tool_properties` -/
def findToolProperties (tools : List FunctionTool) (toolName : List Char) : Except Raised Json :=
  match tools.find? fun tool => tool.name = toolName with
  | none => .ok (.obj [])
  | some tool =>
    match tool.parameters.getD .null with
    | .obj params => .ok ((Items.get? params "properties").getD (.obj []))
    | params => if params.truthy then .error (.exception "AttributeError") else .ok (.obj [])

/-- The type of a value in `enum`. -/
def enumType : Json → String
  | .null => "null"
  | .bool _ => "boolean"
  | .int _ => "integer"
  | .float _ => "number"
  | .str _ => "string"
  | .arr _ => "array"
  | .obj _ => "object"

/-- What the item `type` of a schema names, or the item `enum`. -/
def itemTypes : String × Json → List String
  | ("type", .str type) => [type]
  | ("type", .arr types) => types.filterMap fun
      | .str type => some type
      | _ => none
  | ("enum", .arr values) => values.map enumType
  | _ => []

mutual

/-- `extract_types_from_schema`, as a list of the set it collects. -/
def extractTypesFromSchema : Json → List String
  | .obj items =>
    let types := items.flatMap itemTypes ++ choicesTypes items
    if types = [] then ["string"] else types
  | _ => ["string"]

/-- The types of the choices of a schema. -/
def choicesTypes : List (String × Json) → List String
  | [] => []
  | ("anyOf", .arr choices) :: items => choiceTypes choices ++ choicesTypes items
  | ("oneOf", .arr choices) :: items => choiceTypes choices ++ choicesTypes items
  | ("allOf", .arr choices) :: items => choiceTypes choices ++ choicesTypes items
  | _ :: items => choicesTypes items

def choiceTypes : List Json → List String
  | [] => []
  | choice :: choices => extractTypesFromSchema choice ++ choiceTypes choices

end

/-- `_TYPE_ALIASES` -/
def typeAliases : List (String × String) :=
  [("str", "string"), ("text", "string"), ("varchar", "string"), ("char", "string"),
    ("enum", "string"), ("int", "integer"), ("int32", "integer"), ("int64", "integer"),
    ("uint", "integer"), ("uint32", "integer"), ("uint64", "integer"), ("long", "integer"),
    ("short", "integer"), ("unsigned", "integer"), ("float", "number"), ("float32", "number"),
    ("float64", "number"), ("double", "number"), ("bool", "boolean"), ("dict", "object"),
    ("arr", "array"), ("list", "array"), ("sequence", "array")]

/-- `text.lower()`, as far as the names it is compared with can tell. -/
def lowered (text : List Char) : List Char := text.map Char.toLower

def normalizedType (type : String) : String :=
  let key := String.ofList (lowered (stripped type.toList))
  (Items.get? typeAliases key).getD key

def typePriority : List String :=
  ["null", "integer", "number", "boolean", "object", "array", "string"]

/-- One round of the loop of `coerce_to_schema_type`; `none` goes on with the next type.
The `OverflowError` of an infinite number is not caught. -/
def coerceTo (floats : JsonText.FloatCodec) (numbers : PyNumbers) (value : List Char) :
    String → Option (Except Raised Json)
  | "null" => if lowered value = "null".toList then some (.ok .null) else none
  | "string" => some (.ok (.str (String.ofList value)))
  | "integer" => (numbers.int value).map fun n => .ok (.int n)
  | "number" =>
    match numbers.float value with
    | some (.whole n) => some (.ok (.int n))
    | some (.fraction bits) => some (.ok (.float bits))
    | some .infinite => some (.error (.exception "OverflowError"))
    | _ => none
  | "boolean" =>
    let lowerVal := stripped (lowered value)
    if lowerVal = "true".toList ∨ lowerVal = "1".toList then some (.ok (.bool true))
    else if lowerVal = "false".toList ∨ lowerVal = "0".toList then some (.ok (.bool false))
    else none
  | _ => (JsonText.loads floats value).toOption.map .ok

/-- `coerce_to_schema_type` -/
def coerceToSchemaType (floats : JsonText.FloatCodec) (numbers : PyNumbers) (value : List Char)
    (schemaType : List String) : Except Raised Json :=
  let candidates := typePriority.filter fun type => type ∈ schemaType.map normalizedType
  match candidates.findSome? (coerceTo floats numbers value) with
  | some result => result
  | none => .ok (((JsonText.loads floats value).toOption).getD (.str (String.ofList value)))

/-- The schema of a tool is an object, and so are its `properties`. -/
def FunctionTool.Sound (tool : FunctionTool) : Prop :=
  match tool.parameters.getD .null with
  | .obj params => ∀ properties, Items.get? params "properties" = some properties →
      ∃ items, properties = .obj items
  | params => params.truthy = false

theorem findToolProperties_ok {tools : List FunctionTool} (sound : ∀ tool ∈ tools, tool.Sound)
    (toolName : List Char) : ∃ items, findToolProperties tools toolName = .ok (.obj items) := by
  unfold findToolProperties
  split
  · exact ⟨[], rfl⟩
  · next tool found =>
    have isSound := sound tool (List.mem_of_find?_eq_some found)
    unfold FunctionTool.Sound at isSound
    cases schema : tool.parameters.getD .null with
    | obj params =>
      rw [schema] at isSound
      cases there : Items.get? params "properties" with
      | none => exact ⟨[], by simp [there]⟩
      | some properties =>
        obtain ⟨items, rfl⟩ := isSound properties there
        exact ⟨items, by simp [there]⟩
    | _ =>
      rw [schema] at isSound
      exact ⟨[], if_neg (by rw [isSound]; exact nofun)⟩

end TrajProxy.Parsers

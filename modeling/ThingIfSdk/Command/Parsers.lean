import ThingIfSdk.Model.Command

/-!
# What the loops rely on in the parsers

`jsmn_parse` and `kii_json_read_object` are not part of the repository.
`JsonSpec` states what they are documented to do on the texts that
`handle_command` gives them, for texts of at most `budget` tokens.
-/

namespace ThingIfSdk

open ByteText JsonText

/-- The fields that `handle_command` asks for, when the message has both: a string
command id and an array of actions. -/
structure CommandFields (d : Doc) (commandId actions : Member) : Prop where
  commandId_eq : d.val.field (ascii "commandID") = some commandId
  commandId_kind : commandId.val.kind = .string
  actions_eq : d.val.field (ascii "actions") = some actions
  actions_kind : actions.val.kind = .array

/-- The parsers on JSON texts. -/
structure JsonSpec (json : JsonApi) (budget : Nat) : Prop where
  /-- For an object `jsmn_parse` returns the number of tokens, and writes them in document
  order to the front of the array. -/
  tokens : ∀ (v : Value) (stale : Nat → Token), v.kind = .object → v.tokenCount ≤ budget →
    json.jsmnParse v.render stale =
      ((v.tokenCount : Int), fun i => ((v.tokens 0)[i]?).getD (stale i))
  /-- The path `/[k]` leads to the `k`-th element of an array. -/
  element : ∀ (v : Value) (l : List (Nat × Value)) (k o : Nat) (e : Value),
    v.tokenCount ≤ budget → v.elements = some l → l[k]? = some (o, e) → e.kind = .object →
    let r := json.kiiJsonReadObject v.render [indexField k]
    r.1 = .success ∧ (r.2 0).start = o ∧ (r.2 0).stop = o + e.render.length
  /-- A path that leads nowhere, or to something else than an object. -/
  noElement : ∀ (v : Value) (k : Nat), v.tokenCount ≤ budget →
    v.kind = .array ∨ v.kind = .object →
    (∀ l o e, v.elements = some l → l[k]? = some (o, e) → e.kind ≠ .object) →
    (json.kiiJsonReadObject v.render [indexField k]).1 = .partialSuccess
  /-- A text that is neither an array nor an object has no paths. -/
  noContainer : ∀ (p : Prim) (k : Nat),
    (json.kiiJsonReadObject p.bytes [indexField k]).1 = .rootTypeError ∨
      (json.kiiJsonReadObject p.bytes [indexField k]).1 = .invalidInput
  /-- The two fields of a message that has both. -/
  command : ∀ (d : Doc) (commandId actions : Member), d.val.tokenCount ≤ budget →
    CommandFields d commandId actions →
    let r := json.kiiJsonReadObject d.render commandFields
    r.1 = .success ∧
      (r.2 0).start = d.tokenStart commandId ∧ (r.2 0).stop = d.tokenStop commandId ∧
      (r.2 1).start = d.tokenStart actions ∧ (r.2 1).stop = d.tokenStop actions

/-- What `kii_json_read_object` reports about single fields. -/
structure FieldReport (json : JsonApi) : Prop where
  /-- A success is the success of every field. -/
  success : ∀ t fs, (json.kiiJsonReadObject t fs).1 = .success →
    ∀ i < fs.length, ((json.kiiJsonReadObject t fs).2 i).result = .success
  /-- A partial success leaves some field missing or of another type. -/
  partialSuccess : ∀ t fs, (json.kiiJsonReadObject t fs).1 = .partialSuccess →
    ∃ i < fs.length, ((json.kiiJsonReadObject t fs).2 i).result ≠ .success
  /-- A field that was found lies in the text. -/
  span : ∀ t fs i, i < fs.length →
    (json.kiiJsonReadObject t fs).1 = .success ∨ (json.kiiJsonReadObject t fs).1 = .partialSuccess →
    ((json.kiiJsonReadObject t fs).2 i).result = .success →
    ((json.kiiJsonReadObject t fs).2 i).start ≤ ((json.kiiJsonReadObject t fs).2 i).stop ∧
      ((json.kiiJsonReadObject t fs).2 i).stop ≤ t.length

end ThingIfSdk

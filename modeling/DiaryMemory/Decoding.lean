import DiaryMemory.AnswerSchema
import DiaryMemory.JsonFields

/-!
# What texts decode to

`JsonModule.python` reads a text with `JsonText.loads`, and takes its objects for dicts. What was
written decodes to the value it was written for (`JsonModule.loads_dumps`), so that a run on such
a text need not read it (`JsonModule.first_eq`).
-/

namespace DiaryMemory

open JsonText (Value Layout)

namespace JsonText

mutual

/-- The Python value of a JSON value. -/
def Value.decoded : Value → Json
  | .null => .null
  | .bool b => .bool b
  | .int n => .int n
  | .float x => .float (String.ofList x.text)
  | .special s => .float (String.ofList s.text)
  | .str s => .str s
  | .list items => .list (decodedItems items)
  | .dict fields => .dict (asDict (decodedFields fields))

def decodedItems : List Value → List Json
  | [] => []
  | v :: vs => v.decoded :: decodedItems vs

def decodedFields : List (String × Value) → List (String × Json)
  | [] => []
  | (name, v) :: fields => (name, v.decoded) :: decodedFields fields

end

end JsonText

/-- `json.loads`, with its errors and the renderings of values. -/
def JsonModule.python (decodeError : String → JsonDecodeError) (repr : Json → String)
    (reprStr : String → String) : JsonModule where
  loads text :=
    match JsonText.loads text with
    | some v => .ok v.decoded
    | none => .error (decodeError text)
  repr := repr
  reprStr := reprStr

namespace JsonModule

/-- The decoder where the errors and the renderings are not looked at. -/
def standard : JsonModule := .python (fun text => ⟨"Expecting value", text⟩) (fun _ => "") id

/-- What was written is decoded. -/
theorem loads_dumps {decodeError : String → JsonDecodeError} {repr : Json → String}
    {reprStr : String → String} (layout : Layout) (v : Value) :
    (python decodeError repr reprStr).loads (JsonText.dumps layout v) = .ok v.decoded := by
  simp only [python, JsonText.loads_dumps]

/-- The decoder that is told what this text decodes to. -/
def first (json : JsonModule) (text : String) (v : Json) : JsonModule :=
  { json with loads := fun raw => if raw = text then .ok v else json.loads raw }

theorem first_eq {json : JsonModule} {text : String} {v : Json} (h : json.loads text = .ok v) :
    json.first text v = json := by
  obtain ⟨loads, repr, reprStr⟩ := json
  refine congrArg (JsonModule.mk · repr reprStr) (funext fun raw => ?_)
  dsimp only
  split
  · next hraw => rw [hraw, ← h]
  · rfl

/-- A text that is the one of a value decodes to it. -/
theorem standard_loads {text : String} {v : Value} {json : Json}
    (hdumps : JsonText.dumps {} v = text) (hv : v.decoded = json) :
    standard.loads text = .ok json := by
  rw [← hdumps, ← hv]
  exact loads_dumps {} v

end JsonModule

end DiaryMemory

/-
  ArgusManager.Lua.Value
  ──────────────────────
  Lua values as the manager sees them through `mlua`, and the conversions and
  constants it takes from outside the repository.

  A table is read two ways only: by string key, and as the sequence
  `t[1], t[2], …` up to the first nil.
-/
import ArgusManager.Shared

namespace ArgusManager

/-- A value returned by a script. -/
inductive LuaValue where
  | nil
  | boolean (b : Bool)
  | integer (i : Int)
  | number (x : FloatVal)
  | string (s : String)
  | table (field : String → LuaValue) (seq : List LuaValue)
  | function
  /-- Userdata, threads and the rest: nothing the manager converts. -/
  | other (typeName : String)

instance : Inhabited LuaValue := ⟨.nil⟩

namespace LuaValue

def isNil : LuaValue → Bool
  | .nil => true
  | _ => false

def isFunction : LuaValue → Bool
  | .function => true
  | _ => false

/-- A table literal with the given string keys and no array part. -/
def record (entries : List (String × LuaValue)) : LuaValue :=
  .table (fun key => (entries.lookup key).getD .nil) []

end LuaValue

/-- What the action parser takes from `mlua` and `argus_shared`: the
conversions of a field to `String` and to `f32`, and the largest yield
interval the contract admits. -/
structure Bindings where
  toStr : LuaValue → Option String
  toF32 : LuaValue → Option FloatVal
  gpuYieldEveryMax : Nat

/-- The conversions on the values a well-typed action carries, with the
`f64 → f32` cast exact. -/
def Bindings.exact : Bindings where
  toStr
    | .string s => some s
    | _ => none
  toF32
    | .number x => some x
    | .integer i => some (.fin i)
    | _ => none
  gpuYieldEveryMax := 64

end ArgusManager

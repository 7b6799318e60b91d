import JobConfig.Config
import JobConfig.Json.Value

/-!
Changes to a config. Each one is aimed at a single setting and leaves all others as they are.
-/
namespace JobConfig

/-- A change to a config. -/
inductive Mutation where
  /-- Gives a setting a value. -/
  | put (s : Setting) (v : s.Value)
  /-- Registers a serializer for a type, in place of the one it had. -/
  | addDefaultSerializer (typeName serializer : String)
  | registerKryoType (typeName : String)
  | registerPojoType (typeName : String)

namespace Mutation

def target : Mutation → Setting
  | put s _ => s
  | addDefaultSerializer _ _ => .defaultSerializers
  | registerKryoType _ => .kryoTypes
  | registerPojoType _ => .pojoTypes

def apply (c : Config) : Mutation → Config
  | put s v => c.set s v
  | addDefaultSerializer typeName serializer =>
    { c with serializers := c.serializers.addDefault typeName serializer }
  | registerKryoType typeName => { c with serializers := c.serializers.registerKryo typeName }
  | registerPojoType typeName => { c with serializers := c.serializers.registerPojo typeName }

def applyAll (c : Config) (changes : List Mutation) : Config :=
  changes.foldl apply c

theorem get_apply_of_ne (c : Config) (m : Mutation) {s : Setting} (h : s ≠ m.target) :
    (m.apply c).get s = c.get s := by
  cases m with
  | put t v => exact Config.get_set_of_ne c v h
  | addDefaultSerializer typeName serializer =>
    cases s <;> first | exact absurd rfl h | rfl
  | registerKryoType typeName => cases s <;> first | exact absurd rfl h | rfl
  | registerPojoType typeName => cases s <;> first | exact absurd rfl h | rfl

end Mutation

/-- Job parameters of loosely typed values: a string stands for itself, any other value for its
text, and of several values for one key the last decides. -/
def parametersOf (values : List (String × Json)) : StringMap String :=
  StringMap.ofList (values.map fun e => (e.1, e.2.parameterText))

end JobConfig

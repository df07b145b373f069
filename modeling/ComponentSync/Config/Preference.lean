import ComponentSync.Config.Settings
import ComponentSync.Time.Duration
/-!
User preferences that apply to every component: how long a push waits for a running instance,
how often it looks, and the namespace used when a component names none.
-/
namespace ComponentSync

structure Preference where
  pushTimeoutSecs : Nat
  pollIntervalMs : Nat
  namespace_ : Option String
  deriving DecidableEq, Repr

/-- The preferences of a user who set none: four minutes, one second, no namespace. -/
def Preference.default : Preference := ⟨240, 1000, none⟩

/-- How long a push waits for a running instance. -/
def Preference.pushTimeout (p : Preference) : Time.Duration :=
  Time.Duration.ofSecs p.pushTimeoutSecs

/-- The pause between two looks for a running instance; never zero. -/
def Preference.pollInterval (p : Preference) : Time.Duration :=
  Time.Duration.ofMillis (max p.pollIntervalMs 1)

def defaultNamespace : String := "default"

/-- The namespace of a component: its project, else the preferred namespace, else
`default`. -/
def namespaceFor (s : ComponentSettings) (p : Preference) : String :=
  (s.project <|> p.namespace_).getD defaultNamespace

end ComponentSync

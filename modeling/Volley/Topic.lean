import Volley.Priority

/-!
# Topics

The topics that scenarios write to, grouped in families, and the tier that goes with a topic by
convention. The receiver derives nothing from a topic; the convention only decides which tier the
sender puts beside it.
-/

namespace Volley

namespace Topic

/-- Topics for plain load. They have no conventional tier. -/
def load : List String :=
  ["orders.create", "orders.update", "payments.process", "inventory.update", "users.login",
    "alerts.cpu", "analytics.pageview", "logs.app", "system.health", "events.business",
    "metrics.latency", "traces.span"]

/-- Latency-sensitive topics and their tiers. -/
def realtime : List (String × Priority) :=
  [("system/alerts", .high), ("system/errors", .critical), ("security/breach", .critical),
    ("payment/fraud_detected", .critical), ("user/login", .high), ("user/logout", .high),
    ("payment/processed", .high), ("sensor/temperature_critical", .critical)]

/-- Transactional topics and their tiers. -/
def transactional : List (String × Priority) :=
  [("database/write", .medium), ("database/read", .medium), ("order/created", .medium),
    ("order/updated", .medium), ("user/profile_update", .low), ("user/preferences", .low),
    ("analytics/event", .low), ("logs/audit", .low)]

/-- Bulk topics, all of the lowest tier. -/
def batch : List String :=
  ["analytics/metrics", "analytics/aggregation", "batch/events", "batch/aggregation",
    "reporting/daily"]

/-- The topics of `realtime`, `transactional` and `batch`, each with its conventional tier. -/
def conventions : List (String × Priority) :=
  realtime ++ transactional ++ batch.map fun topic => (topic, .batch)

/-- The conventional tier of a topic, if it is in `conventions`. -/
def priority? (topic : String) : Option Priority :=
  conventions.lookup topic

end Topic

/-- A family of topics. -/
inductive TopicSet where
  | load
  | realtime
  | transactional
  | batch
  /-- Every topic with a conventional tier. -/
  | all
  deriving DecidableEq, Repr, Inhabited

namespace TopicSet

/-- The topics of a `TopicSet`, in their fixed order. -/
def topics : TopicSet → List String
  | load => Topic.load
  | realtime => Topic.realtime.map Prod.fst
  | transactional => Topic.transactional.map Prod.fst
  | batch => Topic.batch
  | all => Topic.conventions.map Prod.fst

/-- The number of pairs of a tier in `Priority.all` and a topic of the family. -/
def pairs (set : TopicSet) : Nat :=
  Priority.all.length * max set.topics.length 1

end TopicSet

end Volley

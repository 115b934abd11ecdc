import Overworld.Server.Metrics

set_option autoImplicit false

/-!
The counters of a server as two texts for monitoring: lines of named series with their help, and a
JSON object by subject.
-/

namespace Overworld

/-- A series of the text exposition: its name, what it measures, and the counters it shows, each
behind its label. -/
structure Series where
  name : String
  help : String
  /-- A `gauge` is a level; a `counter` is a total. -/
  kind : String
  samples : List (String × Counter)

namespace Series

def gauge (name help : String) (counter : Counter) : Series := ⟨name, help, "gauge", [("", counter)]⟩

def counter (name help : String) (counter : Counter) : Series :=
  ⟨name, help, "counter", [("", counter)]⟩

/-- The series in the order they are shown. -/
def all : List Series :=
  [gauge "tilerealm_entities" "Live entities in the world" .entityCount,
    gauge "tilerealm_npcs" "Live non-player entities" .npcCount,
    gauge "tilerealm_server_tick" "Last completed simulation tick" .serverTick,
    gauge "tilerealm_tick_time_microseconds" "Current tick time in microseconds" .tickTime,
    gauge "tilerealm_tick_time_p95_microseconds" "95th percentile tick time" .tickTimeP95,
    gauge "tilerealm_tick_time_p99_microseconds" "99th percentile tick time" .tickTimeP99,
    gauge "tilerealm_tick_time_max_microseconds" "Maximum tick time" .tickTimeMax,
    counter "tilerealm_tick_count" "Total ticks processed" .tickCount,
    gauge "tilerealm_connections_active" "Connected clients" .connectionsActive,
    counter "tilerealm_connections_total" "Accepted connections" .connectionsTotal,
    counter "tilerealm_connections_kicked_total" "Connections closed by the server"
      .connectionsKicked,
    counter "tilerealm_connections_timed_out_total" "Connections dropped for silence"
      .connectionsTimedOut,
    counter "tilerealm_messages_sent_total" "Total messages sent" .messagesSent,
    counter "tilerealm_messages_received_total" "Total messages received" .messagesReceived,
    counter "tilerealm_bytes_sent_total" "Total bytes sent" .bytesSent,
    counter "tilerealm_bytes_received_total" "Total bytes received" .bytesReceived,
    counter "tilerealm_inbound_overflow_total" "Events dropped on a full inbound queue"
      .inboundOverflow,
    counter "tilerealm_inputs_accepted_total" "Inputs admitted by the sequencer" .inputsAccepted,
    ⟨"tilerealm_inputs_dropped_total", "Inputs dropped by the sequencer", "counter",
      [("\x7breason=\"late\"\x7d", .inputsDroppedLate),
        ("\x7breason=\"early\"\x7d", .inputsDroppedEarly),
        ("\x7breason=\"duplicate\"\x7d", .inputsDroppedDuplicate)]⟩,
    counter "tilerealm_tick_adjustments_total" "Tick adjustments issued to clients" .tickAdjustments,
    counter "tilerealm_entity_updates_total" "Entity updates sent" .entityUpdates,
    counter "tilerealm_aoi_enters_total" "Entities entering an area of interest" .interestEnters,
    counter "tilerealm_aoi_leaves_total" "Entities leaving an area of interest" .interestLeaves,
    counter "tilerealm_chunks_streamed_total" "Map chunks streamed" .chunksStreamed]

/-- Help, kind, and one line for each labelled value. -/
def lines (name help kind : String) (samples : List (String × Nat)) : String :=
  "# HELP " ++ name ++ " " ++ help ++ "\n# TYPE " ++ name ++ " " ++ kind ++ "\n" ++
    String.join (samples.map fun (label, value) => name ++ label ++ " " ++ toString value ++ "\n")

end Series

namespace Metrics

/-- The text exposition, for a server that has run for `uptime` seconds. -/
def exposition (metrics : Metrics) (uptime : Nat) : String :=
  String.join (Series.all.map fun series =>
    Series.lines series.name series.help series.kind
      (series.samples.map fun (label, counter) => (label, (metrics.get counter).toNat))) ++
  Series.lines "tilerealm_uptime_seconds" "Server uptime in seconds" "counter" [("", uptime)]

/-- A member of an object, behind its indentation. -/
def jsonMember (indent name value : String) : String := indent ++ "\"" ++ name ++ "\": " ++ value

def jsonSection (name : String) (fields : List (String × UInt64)) : String :=
  jsonMember "  " name ("\x7b\n" ++
    ",\n".intercalate (fields.map fun (field, value) =>
      jsonMember "    " field (toString value.toNat)) ++ "\n  \x7d")

/-- The JSON object, for a server that has run for `uptime` seconds. -/
def json (metrics : Metrics) (uptime : Nat) : String :=
  "\x7b\n" ++ ",\n".intercalate
    [jsonSection "world"
        [("entities", metrics.get .entityCount), ("npcs", metrics.get .npcCount),
          ("tick", metrics.get .serverTick)],
      jsonSection "performance"
        [("tick_time_us", metrics.get .tickTime), ("tick_time_p95_us", metrics.get .tickTimeP95),
          ("tick_time_p99_us", metrics.get .tickTimeP99),
          ("tick_time_max_us", metrics.get .tickTimeMax), ("tick_count", metrics.get .tickCount)],
      jsonSection "network"
        [("connections", metrics.get .connectionsActive),
          ("messages_sent", metrics.get .messagesSent),
          ("messages_received", metrics.get .messagesReceived),
          ("bytes_sent", metrics.get .bytesSent), ("bytes_received", metrics.get .bytesReceived)],
      jsonSection "inputs"
        [("accepted", metrics.get .inputsAccepted), ("dropped", metrics.inputsDropped),
          ("adjustments", metrics.get .tickAdjustments)],
      jsonMember "  " "uptime_seconds" (toString uptime)] ++ "\n\x7d"

end Metrics

end Overworld

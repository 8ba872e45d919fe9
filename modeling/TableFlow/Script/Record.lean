import TableFlow.Json.Value
import TableFlow.Script.Job

namespace TableFlow

def JsonValue.tagged (type : String) (members : List (String × JsonValue)) : JsonValue :=
  .object (("type", .text type) :: members)

def Sink.toJson : Sink → JsonValue
  | .localTable name cached =>
      JsonValue.tagged "LocalTable" [("name", .text name), ("cached", .bool cached)]
  | .variable name => JsonValue.tagged "Variable" [("name", .text name)]
  | .remoteObject object op idsTable =>
    JsonValue.tagged "RemoteObject"
      [("object", .text object), ("op", .text op.name), ("new_ids_table", .ofOption .text idsTable)]

def Source.toJson : Source → JsonValue
  | .localTables names => JsonValue.tagged "LocalTables" [("names", .ofTexts names)]
  | .remoteObject endpoint object =>
    JsonValue.tagged "RemoteObject" [("endpoint", .text endpoint.name), ("object", .text object)]

def LoopMarker.toJson : LoopMarker → JsonValue
  | .plain => JsonValue.tagged "None" []
  | .opens param loopId =>
      JsonValue.tagged "Begin" [("param", .text param), ("loop_id", .text loopId)]
  | .closes loopId => JsonValue.tagged "End" [("loop_id", .text loopId)]

def Step.jsonMembers (s : Step) : List (String × JsonValue) :=
  [("line", .nat s.line), ("query", .text s.query), ("sinks", .list (s.sinks.map Sink.toJson)),
    ("source", .ofOption Source.toJson s.source), ("marker", s.marker.toJson),
    ("raw_line", .text s.text)]

namespace StepNode

mutual

def toJson : StepNode → JsonValue
  | .leaf step => JsonValue.tagged "Leaf" step.jsonMembers
  | .loop param loopId driver body =>
    JsonValue.tagged "Loop"
      [("param", .text param), ("loop_id", .text loopId), ("driver", .object driver.jsonMembers),
        ("body", .list (listToJson body))]

def listToJson : List StepNode → List JsonValue
  | [] => []
  | node :: rest => node.toJson :: listToJson rest

end

end StepNode

def Job.toJson (j : Job) : JsonValue :=
  .object [("nodes", .list (StepNode.listToJson j.nodes)), ("digest", .text j.digest)]

end TableFlow

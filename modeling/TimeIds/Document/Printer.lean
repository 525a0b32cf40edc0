import TimeIds.Document.Basic

/-!
The written form of a registry document.

JSON with one member a line and an indent of two blanks a level. The interval is left out where the
document has none, and an empty list of nodes is written `[]`.
-/
namespace TimeIds.Document

/-- The lines of a node inside the list. -/
def nodeText (n : Node) : String :=
  "    \x7b\n      \"id\": \"" ++ n.id.text ++ "\",\n      \"clock_sequence\": " ++
    toString n.clockSequence.toNat ++ ",\n      \"timestamp\": " ++ toString n.lastTicks.toNat ++
    "\n    \x7d"

/-- The list of nodes. -/
def nodesText : List Node → String
  | [] => "[]"
  | nodes => "[\n" ++ String.intercalate ",\n" (nodes.map nodeText) ++ "\n  ]"

/-- The line of the interval, if there is one. -/
def intervalText : Option UInt64 → String
  | none => ""
  | some n => "  \"synch_interval\": " ++ toString n.toNat ++ ",\n"

/-- The text of a document. -/
def text (d : Document) : String :=
  "\x7b\n" ++ intervalText d.interval ++ "  \"nodes\": " ++ nodesText d.nodes ++ "\n\x7d"

end TimeIds.Document

/-! Short messages to the user. -/
namespace ModelWorkspace

/-- The level of a notice. -/
inductive Level
  | info
  | error
  deriving DecidableEq

/-- A message to the user. -/
structure Notice where
  level : Level
  text : String
  deriving DecidableEq

abbrev NoticeLog := List Notice

def holdsText (needle : List Char) : List Char → Bool
  | [] => needle.isEmpty
  | c :: rest => needle.isPrefixOf (c :: rest) || holdsText needle rest

def NoticeLog.contains (log : NoticeLog) (level : Level) (needle : String) : Bool :=
  log.any fun n => n.level == level && holdsText needle.toList n.text.toList

end ModelWorkspace

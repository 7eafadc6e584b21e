import Refute.Report.Basic

namespace Refute

inductive Cell where
  | plain (text : String)
  | styled (text style : String)
deriving DecidableEq

inductive PanelBody where
  | table (rows : List (String × Cell))
  | message (text style : String)
deriving DecidableEq

structure Panel where
  title : String
  border : String
  body : PanelBody
deriving DecidableEq

/-- Code points that would ring a console or move its cursor. -/
def consoleControls : List Nat :=
  [7, 8, 11, 12, 13]

/-- Styled text is shown without console controls; plain text is shown as it is. -/
def Cell.ofStyled (text style : String) : Cell :=
  .styled (String.ofList (text.toList.filter fun c => !consoleControls.contains c.toNat)) style

namespace Panel

def headerColor : String := "#ff6b6b"

def valueStyle : String := "bold #ffd93d"

def warningColor : String := "#ffa500"

def ofReport (describe : β → Except Fault Value) (r : Report β) : Except Fault Panel := do
  let .text smallest ← describe r.smallest | .error .noText
  let others ←
    Report.distinctOthers (Report.fixed describe) Report.othersShown r.smallest r.others
  let lines ← Report.lines others
  let cause := match r.cause with
    | some fault => [("Cause", Cell.ofStyled fault.render headerColor)]
    | none => []
  let shown := if others.isEmpty then [] else [("Others", Cell.plain lines)]
  return {
    title := "[bold]PROPERTY FALSIFIED"
    border := headerColor
    body := .table <|
      [("Examples", .plain (toString r.examples)),
        ("Seed", .plain (toString r.seed)),
        ("Smallest", .ofStyled smallest valueStyle)] ++ cause ++ shown }

def ofExhaustion (examples : Int) : Panel where
  title := "[bold]VALUES EXHAUSTED"
  border := warningColor
  body := .message (exhaustionText examples) warningColor

end Panel

end Refute

import CliAgentOrchestrator.Library.Decimal
import CliAgentOrchestrator.Library.Regex
import Mathlib.Data.Finset.Sort

/-!
# The scan for stale terminal ids

What `utils/terminal_id_scan.py` does to the text of a message that is about to be sent: the rules
find ids that are addressed, the exempt ones are left out, and an id that is neither the sender's
own nor that of a live terminal makes the guard refuse.
-/

set_option autoImplicit false

namespace CliAgentOrchestrator.Terminal

open Library

/-! ## The rules -/

def hexDigits : Letter := text "0123456789abcdef"

/-- `[0-9a-fA-F]` -/
def isHex (c : Nat) : Bool := isDigit c || (97 ≤ c && c ≤ 102) || (65 ≤ c && c ≤ 70)

/-- White space, `:`, `=`, `_`, a slash or a dash. -/
def isAddressMark (c : Nat) : Bool := isSpace c || (text ":=_/-").contains c

/-- `[\s:=]` -/
def isAssignMark (c : Nat) : Bool := isSpace c || (text ":=").contains c

/-- `['\"-]`, with a backtick for the dash -/
def isQuoteMark (c : Nat) : Bool := [39, 34, 96].contains c

/-- `_HEX8`: a match of a rule ends with the id.

SOURCE: utils/terminal_id_scan.py:54 -/
def hex8 : Regex :=
  Regex.chain [.look fun a _ => !a.any isHex, .word (List.replicate 8 hexDigits),
    .look fun _ rest => !rest.head?.any isHex]

/-- What stands between the last word and the id. -/
def quotedId : Regex := .seq (.run isQuoteMark 0 (some 1)) hex8

section Rules

variable (w : CharTable)

def terminalBody : Regex :=
  Regex.chain [Regex.caseless "terminal", (Regex.caseless "s").optional, Regex.boundary w,
    .run isAddressMark 0 (some 3), (Regex.caseless "id").optional, .run isAddressMark 0 (some 3),
    quotedId]

def idKwargBody : Regex :=
  Regex.chain [Regex.anyWord ([text "receiver_id", text "caller_id", text "sender_id",
      text "terminal_id", text "to_terminal", text "CAO_TERMINAL_ID"].map caselessLetters),
    Regex.boundary w, .run isAssignMark 0 (some 3), quotedId]

/-- The words of `callback`. -/
def callbackWords : Regex :=
  .alt (Regex.chain [Regex.caseless "call", .run isSpace 0 (some 1), Regex.caseless "back"])
    (.alt (Regex.caseless "callback") (.alt (Regex.caseless "reply") (.alt (Regex.caseless "report")
      (.alt (Regex.caseless "respond")
        (.alt (Regex.chain [Regex.caseless "hand", .run isSpace 0 (some 1), Regex.caseless "off"])
          (Regex.chain [Regex.caseless "send", .run (fun c => isSpace c || c == 95) 0 (some 1),
            Regex.caseless "message"]))))))

def callbackBody : Regex :=
  Regex.chain [callbackWords, Regex.boundary w, .run isSpace 1 none, Regex.boundary w,
    Regex.caseless "to", Regex.boundary w, .run isSpace 1 none,
    (Regex.chain [(Regex.chain [Regex.caseless "the", .run isSpace 1 none]).optional,
      Regex.boundary w,
      Regex.anyWord ([text "terminal", text "seat"].map caselessLetters), Regex.boundary w,
      .run isSpace 1 none]).optional,
    quotedId]

def seatBody : Regex :=
  Regex.chain [Regex.caseless "seat", (Regex.caseless "s").optional, Regex.boundary w,
    .run isAssignMark 0 (some 3), quotedId]

/-- The rules without the word boundary that each begins with. -/
def ruleBodies : List (Text × Regex) :=
  [(text "terminal", terminalBody w), (text "id-kwarg", idKwargBody w),
    (text "callback", callbackBody w), (text "seat", seatBody w)]

/-- SOURCE: utils/terminal_id_scan.py:60-77 -/
def citationRules : List (Text × Regex) :=
  (ruleBodies w).map fun (name, body) => (name, .seq (Regex.boundary w) body)

end Rules

/-! ## What is exempt -/

/-- `[ \t]` -/
def isBlank (c : Nat) : Bool := c == 32 || c == 9

/-- A line that begins with a fence, under `re.MULTILINE`. -/
def fenceLine : Regex :=
  Regex.chain [.look fun a _ => a.all (· == 10), .run isBlank 0 none,
    .word (exactLetters [96, 96, 96]), .run (· != 10) 0 none, .look fun _ rest => rest.head?.all (· == 10)]

/-- The spans of the fences that are still to come, with the place of an open one. -/
def spansFrom (size : Nat) : Option Nat → List (Nat × Nat) → List (Nat × Nat)
  | none, [] => []
  | some a, [] => [(a, size)]
  | none, m :: ms => spansFrom size (some m.1) ms
  | some a, m :: ms => (a, m.2) :: spansFrom size none ms

/-- SOURCE: utils/terminal_id_scan.py:109-128 -/
def fencedSpans (t : Text) : List (Nat × Nat) := spansFrom t.length none (finditer t fenceLine)

/-- SOURCE: utils/terminal_id_scan.py:131-132 -/
def inAnySpan (pos : Nat) (spans : List (Nat × Nat)) : Bool :=
  spans.any fun span => span.1 ≤ pos && pos < span.2

/-- SOURCE: utils/terminal_id_scan.py:135-145 -/
def isQuotedLine (t : Text) (lineStart : Nat) : Bool :=
  ((t.drop lineStart).dropWhile isBlank).head? == some 62

/-- What stands around a place, as far as these characters go on both sides. -/
def around (p : Nat → Bool) (t : Text) (pos : Nat) : Text :=
  ((t.take pos).reverse.takeWhile p).reverse ++ (t.drop pos).takeWhile p

/-- What does not end a token: white space of ASCII and quotation marks do. -/
def inToken (c : Nat) : Bool := !([32, 9, 10, 13, 12, 11, 39, 34, 96].contains c)

/-- SOURCE: utils/terminal_id_scan.py:148-164 -/
def inPathToken (t : Text) (pos : Nat) : Bool := (around inToken t pos).contains 47

/-! ## The citations -/

/-- The ends of the line feeds. -/
def lineStartsFrom : Nat → Text → List Nat
  | _, [] => []
  | n, c :: t => if c = 10 then (n + 1) :: lineStartsFrom (n + 1) t else lineStartsFrom (n + 1) t

def lineStarts (t : Text) : List Nat := 0 :: lineStartsFrom 0 t

/-- The loop of `_line_of`; each round at least halves what is left. -/
def bisect (starts : List Nat) (pos : Nat) : Nat → Nat → Nat → Nat
  | 0, low, _ => low
  | fuel + 1, low, high =>
    if low < high then
      let mid := (low + high + 1) / 2
      if starts.getD mid 0 ≤ pos then bisect starts pos fuel mid high
      else bisect starts pos fuel low (mid - 1)
    else low

/-- SOURCE: utils/terminal_id_scan.py:186-194 -/
def lineOf (t : Text) (pos : Nat) : Nat :=
  bisect (lineStarts t) pos (lineStarts t).length 0 ((lineStarts t).length - 1) + 1

structure Citation where
  terminalId : Text
  rule : Text
  source : Text
  line : Nat
  snippet : Text

/-- The line that begins here, stripped and cut. -/
def snippetAt (t : Text) (start : Nat) : Text :=
  let snippet := strip ((t.drop start).takeWhile (· != 10))
  if 160 < snippet.length then snippet.take 157 ++ text "..." else snippet

/-- The place of the id of a match, its last eight characters. -/
def idPos (m : Nat × Nat) : Nat := m.2 - 8

def idAt (t : Text) (pos : Nat) : Text := (t.drop pos).take 8

/-- What was seen and what was found, with where its match begins. -/
structure Scan where
  seen : List (Text × Nat)
  found : List (Nat × Citation)

/-- One match of one rule.

SOURCE: utils/terminal_id_scan.py:202-223 -/
def scanMatch (t source : Text) (s : Scan) (c : Text × (Nat × Nat)) : Scan :=
  let pos := idPos c.2
  if inPathToken t pos || inAnySpan pos (fencedSpans t) then s
  else
    let lineNo := lineOf t c.2.1
    let start := (lineStarts t).getD (lineNo - 1) 0
    if isQuotedLine t start then s
    else
      let key := (idAt t pos, lineNo)
      if s.seen.contains key then s
      else
        { seen := key :: s.seen
          found := s.found ++ [(c.2.1, ⟨idAt t pos, c.1, source, lineNo, snippetAt t start⟩)] }

section Finding

variable (w : CharTable)

/-- The matches of every rule, rule by rule. -/
def ruleMatches (t : Text) : List (Text × (Nat × Nat)) :=
  (citationRules w).flatMap fun rule => (finditer t rule.2).map fun m => (rule.1, m)

/-- SOURCE: utils/terminal_id_scan.py:167-225 -/
def findCitations (t source : Text) : List Citation :=
  if t.isEmpty then []
  else
    let s := (ruleMatches w t).foldl (scanMatch t source) ⟨[], []⟩
    (s.found.insertionSort fun a b => a.1 ≤ b.1).map (·.2)

end Finding

/-! ## The verdicts -/

inductive Verdict where
  | own
  | live
  | stale
  | unknown
deriving DecidableEq

/-- SOURCE: utils/terminal_id_scan.py:228-244 -/
def classifyId (terminalId : Text) (ownId : Option Text) (liveIds : Option (Finset Text)) :
    Verdict :=
  if ownId.any (fun own => !own.isEmpty && terminalId == own) then .own
  else
    match liveIds with
    | none => .unknown
    | some live => if terminalId ∈ live then .live else .stale

structure Finding where
  citation : Citation
  verdict : Verdict

/-- SOURCE: utils/terminal_id_scan.py:273-278 -/
def verdicts (citations : List Citation) (ownId : Option Text)
    (liveIds : Option (Finset Text)) : List Finding :=
  citations.map fun c => ⟨c, classifyId c.terminalId ownId liveIds⟩

/-- SOURCE: utils/terminal_id_scan.py:295-296 -/
def staleFindings (findings : List Finding) : List Finding :=
  findings.filter fun f => f.verdict == .stale

/-! ## The refusal -/

/-- `{where}:{line} cites {id}` -/
def cite (source : Text) (line : Nat) (terminalId : Text) : Text :=
  source ++ text ":" ++ digits line ++ text " cites " ++ terminalId

/-- What the first line of a refusal names. -/
def cited (stale : List Finding) : List Text :=
  stale.map fun f => cite f.citation.source f.citation.line f.citation.terminalId

/-- SOURCE: utils/terminal_id_scan.py:299-327 -/
def formatRefusal (stale : List Finding) (ownId : Option Text) (liveIds : Option (Finset Text))
    (action : Text) : Text :=
  let caller := match ownId with
    | some own => if own.isEmpty then text "<unset: CAO_TERMINAL_ID is not set>" else own
    | none => text "<unset: CAO_TERMINAL_ID is not set>"
  let liveList := match liveIds with
    | some live => (text ", ").intercalate (live.sort (· ≤ ·))
    | none => []
  let head := if stale.isEmpty then text "message cites a stale terminal id"
    else (text "; ").intercalate (cited stale)
  joinLines ([text "E-STALE-TERMINAL-ID: " ++ head ++ text "; your id is " ++ caller
        ++ text "; live ids: [" ++ liveList ++ text "]",
      text "No " ++ action
        ++ text " was sent. Every id above is neither your own nor a live terminal —",
      text "it is almost certainly a pre-relaunch seat id carried over by a compaction",
      text "summary. Replace it with " ++ caller
        ++ text " (or with the live id you meant) and retry."]
    ++ stale.map fun f => text "  [" ++ f.citation.rule ++ text "] " ++ f.citation.source
        ++ text ":" ++ digits f.citation.line ++ text ": " ++ f.citation.snippet)

section Guard

variable (w : CharTable)

/-- What makes the guard refuse. -/
def staleIn (message : Text) (ownId : Option Text) (liveIds : Option (Finset Text)) :
    List Finding :=
  staleFindings (verdicts (findCitations w message (text "message")) ownId liveIds)

/-- SOURCE: utils/terminal_id_scan.py:330-341 -/
def guard (message : Text) (ownId : Option Text) (liveIds : Option (Finset Text))
    (action : Text) : Option Text :=
  let stale := staleIn w message ownId liveIds
  if stale.isEmpty then none else some (formatRefusal stale ownId liveIds action)

end Guard

end CliAgentOrchestrator.Terminal

import ThreeAddress.Pipeline

/-!
# Sessions

A session works step by step on objects with names: allocators of temporaries, reporters, scanners,
parsers, trees and sinks for instructions. A parser shares its scanner and its allocator with the
names these were made under, and keeps them when such a name is given to another object. A step
that fails answers with its fault, and the session goes on. A step is not taken at all while some
name that is mentioned with it stands for nothing.
-/

namespace ThreeAddress

namespace Session

/-- A parser's own part; its scanner and its allocator are shared and known by number. -/
structure Reader where
  scanner : Nat
  allocator : Nat
  depth : Nat
  limits : Limits
  category : Category
deriving DecidableEq, Repr

/-- What a name stands for. -/
inductive Object where
  | allocator (number : Nat)
  | reporter (category : Category)
  | scanner (number : Nat)
  | parser (reader : Reader)
  | tree (t : Tree)
  | sink (code : Array Instruction)
deriving DecidableEq, Repr

inductive Step where
  | newAllocator (name : String)
  | takeTemporary (name : String)
  | newReporter (name : String) (category : Category)
  | report (name : String) (issue : Issue)
  | newScanner (name source : String) (reporter? : Option String)
  | tokenize (source : String) (reporter? : Option String)
  | advance (name : String)
  | newParser (name scanner : String) (allocator? reporter? : Option String) (limits : Limits)
  | parse (name : String) (store? : Option String)
  | expression (name : String) (store? : Option String)
  | newTree (name : String) (t : Tree)
  | newSink (name : String)
  | evaluateInto (tree sink : String)
  | evaluate (tree : String)
  | list (sink : String)
  | listAnnotated (sink : String)
  | countOperators (sink : String)

/-- Whether the step makes the object that it names. -/
def Step.isCreation : Step → Bool
  | .newAllocator .. | .newReporter .. | .newScanner .. | .newParser .. | .newTree ..
  | .newSink .. => true
  | _ => false

/-- A step and the names that are mentioned with it, needed or not, in the order of their check. -/
structure Command where
  mentioned : List String
  step : Step

inductive Answer where
  | unknownName (name : String)
  | done
  | failed (fault : Fault)
  | allocator (count : Nat)
  | temporary (t : Temporary) (count : Nat)
  | tokens (tokens : List Token)
  | scanner (s : Scanner)
  | advanced (outcome : Except Diagnostic Token) (s : Scanner)
  | parser (p : Parser)
  | parsed (outcome : Except Diagnostic Expr) (p : Parser)
  | tree (t : Tree)
  | evaluatedInto (outcome : Except Fault Int) (size : Nat)
  | evaluated (value : Int) (code : List Instruction)
  | text (text : String)
  | lines (lines : List String)
  | counts (counts : List (Operator × Nat))

end Session

structure Session where
  scanners : Array Scanner := #[]
  /-- For each allocator, how many temporaries have been taken. -/
  allocators : Array Nat := #[]
  /-- The meaning of each name, the latest in front. -/
  names : List (String × Session.Object) := []
  output : Output := {}

namespace Session

/-- Whether the name stands for an object of any kind. -/
def knows (s : Session) (name : String) : Bool :=
  (s.names.lookup name).isSome

/-- A step's work. It stops at a name that stands for nothing of the kind that is needed. -/
abbrev Work := EStateM String Session

def find {α : Type} (name : String) (view : Session → Object → Option α) : Work α := do
  let s ← get
  match (s.names.lookup name).bind (view s) with
  | some a => return a
  | none => throw name

def findAllocator (name : String) : Work (Nat × Nat) :=
  find name fun s object =>
    match object with
    | .allocator number => s.allocators[number]?.map (number, ·)
    | _ => none

def findReporter (name : String) : Work Category :=
  find name fun _ object =>
    match object with
    | .reporter category => some category
    | _ => none

/-- The category of a reporter; without one, and under a name that stands for some other object,
issues are filed as issues of the source text. -/
def findCategory (reporter? : Option String) : Work Category :=
  match reporter? with
  | none => return .badSource
  | some name =>
    find name fun _ object =>
      match object with
      | .reporter category => some category
      | _ => some .badSource

def findScanner (name : String) : Work (Nat × Scanner) :=
  find name fun s object =>
    match object with
    | .scanner number => s.scanners[number]?.map (number, ·)
    | _ => none

/-- A parser together with the objects that it shares. -/
def findParser (name : String) : Work (Reader × Parser) :=
  find name fun s object =>
    match object with
    | .parser reader => do
      let scanner ← s.scanners[reader.scanner]?
      let temporaries ← s.allocators[reader.allocator]?
      return (reader, { reader with scanner, temporaries })
    | _ => none

def findTree (name : String) : Work Tree :=
  find name fun _ object =>
    match object with
    | .tree t => some t
    | _ => none

def findSink (name : String) : Work (Array Instruction) :=
  find name fun _ object =>
    match object with
    | .sink code => some code
    | _ => none

def bindName (name : String) (object : Object) : Work Unit :=
  modify fun s => { s with names := (name, object) :: s.names.filter (·.1 ≠ name) }

def dropName (name : String) : Work Unit :=
  modify fun s => { s with names := s.names.filter (·.1 ≠ name) }

def record (event : Event) : Work Unit :=
  modify fun s => { s with output := s.output.record event }

/-- A new allocator and its number. -/
def addAllocator : Work Nat :=
  modifyGet fun s => (s.allocators.size, { s with allocators := s.allocators.push 0 })

def addScanner (scanner : Scanner) : Work Nat :=
  modifyGet fun s => (s.scanners.size, { s with scanners := s.scanners.push scanner })

/-- The allocator of a name, or a new one when no name is given. -/
def findOrAddAllocator (name? : Option String) : Work (Nat × Nat) := do
  match name? with
  | some name => findAllocator name
  | none =>
    let number ← addAllocator
    return (number, 0)

def setAllocator (number count : Nat) : Work Unit :=
  modify fun s => { s with allocators := s.allocators.setIfInBounds number count }

def setScanner (number : Nat) (scanner : Scanner) : Work Unit :=
  modify fun s => { s with scanners := s.scanners.setIfInBounds number scanner }

/-- Puts back a parser and what it shares. -/
def setParser (name : String) (reader : Reader) (p : Parser) : Work Unit := do
  setScanner reader.scanner p.scanner
  setAllocator reader.allocator p.temporaries
  bindName name (.parser { reader with depth := p.depth })

/-- Runs a pipeline on the session's output. -/
def perform {α : Type} (pipeline : Pipeline α) : Work (Except Fault α) :=
  modifyGet fun s =>
    match pipeline.run s.output with
    | .ok a output => (.ok a, { s with output })
    | .error fault output => (.error fault, { s with output })

/-! ### What each step does -/

def newAllocator (name : String) : Work Answer := do
  let number ← addAllocator
  bindName name (.allocator number)
  return .allocator 0

def takeTemporary (name : String) : Work Answer := do
  let (number, count) ← findAllocator name
  setAllocator number (count + 1)
  return .temporary ⟨count⟩ (count + 1)

def newReporter (name : String) (category : Category) : Work Answer := do
  bindName name (.reporter category)
  return .done

def report (name : String) (issue : Issue) : Work Answer := do
  let category ← findReporter name
  record (.reported (issue.fileUnder category))
  return .failed (.diagnostic (issue.fileUnder category))

/-- A scanner on a new source text. If its first token cannot be read, the name stands for nothing
afterwards. -/
def newScanner (name source : String) (reporter? : Option String) : Work Answer := do
  let category ← findCategory reporter?
  match Scanner.ofSource source category with
  | .ok scanner =>
    let number ← addScanner scanner
    bindName name (.scanner number)
    return .scanner scanner
  | .error d =>
    record (.reported d)
    dropName name
    return .failed (.diagnostic d)

def tokenize (source : String) (reporter? : Option String) : Work Answer := do
  let category ← findCategory reporter?
  match ← perform (Pipeline.tokenize source category) with
  | .ok tokens => return .tokens tokens
  | .error fault => return .failed fault

def advance (name : String) : Work Answer := do
  let (number, scanner) ← findScanner name
  match scanner.advance with
  | .ok token scanner =>
    setScanner number scanner
    return .advanced (.ok token) scanner
  | .error d scanner =>
    setScanner number scanner
    record (.reported d)
    return .advanced (.error d) scanner

/-- A parser on a scanner. Without the name of an allocator it takes temporaries from one of its
own. -/
def newParser (name scannerName : String) (allocator? reporter? : Option String)
    (limits : Limits) : Work Answer := do
  let (scannerNumber, scanner) ← findScanner scannerName
  let (allocator, temporaries) ← findOrAddAllocator allocator?
  let category ← findCategory reporter?
  let reader : Reader := { scanner := scannerNumber, allocator, depth := 0, limits, category }
  bindName name (.parser reader)
  return .parser { reader with scanner, temporaries }

/-- Lets a parser read. The tree is kept under the name `store?`, if one is given. -/
def read (reading : Parser → EStateM.Result Diagnostic Parser Expr)
    (onSuccess : Expr → Parser → Work Unit) (name : String) (store? : Option String) :
    Work Answer := do
  let (reader, p) ← findParser name
  match reading p with
  | .ok e p =>
    setParser name reader p
    onSuccess e p
    store?.forM fun target => bindName target (.tree e.toTree)
    return .parsed (.ok e) p
  | .error d p =>
    setParser name reader p
    record (.reported d)
    return .parsed (.error d) p

def parse (name : String) (store? : Option String) : Work Answer :=
  read Parser.parse (fun e p => record (.parsed e.height p.temporaries)) name store?

def expression (name : String) (store? : Option String) : Work Answer :=
  read Parser.expression (fun _ _ => return) name store?

def newTree (name : String) (t : Tree) : Work Answer := do
  bindName name (.tree t)
  return .tree t

def newSink (name : String) : Work Answer := do
  bindName name (.sink #[])
  return .done

/-- Evaluates a tree into a sink, which keeps what it received when evaluation fails. -/
def evaluateInto (treeName sinkName : String) : Work Answer := do
  let t ← findTree treeName
  let code ← findSink sinkName
  match (Pipeline.evaluateInto false t).run (code, (← get).output) with
  | .ok value (code, output) =>
    modify fun s => { s with output }
    bindName sinkName (.sink code)
    return .evaluatedInto (.ok value) code.size
  | .error fault (code, output) =>
    modify fun s => { s with output }
    bindName sinkName (.sink code)
    return .evaluatedInto (.error fault) code.size

def evaluate (treeName : String) : Work Answer := do
  let t ← findTree treeName
  match ← perform (Pipeline.evaluate false t) with
  | .ok (value, code) => return .evaluated value code
  | .error fault => return .failed fault

def list (sinkName : String) : Work Answer := do
  return .text (listing false (← findSink sinkName).toList)

def listAnnotated (sinkName : String) : Work Answer := do
  return .lines (listingLines true (← findSink sinkName).toList)

def countOperators (sinkName : String) : Work Answer := do
  return .counts (operatorCounts (← findSink sinkName).toList)

def work : Step → Work Answer
  | .newAllocator name => newAllocator name
  | .takeTemporary name => takeTemporary name
  | .newReporter name category => newReporter name category
  | .report name issue => report name issue
  | .newScanner name source reporter? => newScanner name source reporter?
  | .tokenize source reporter? => tokenize source reporter?
  | .advance name => advance name
  | .newParser name scanner allocator? reporter? limits =>
    newParser name scanner allocator? reporter? limits
  | .parse name store? => parse name store?
  | .expression name store? => expression name store?
  | .newTree name t => newTree name t
  | .newSink name => newSink name
  | .evaluateInto tree sink => evaluateInto tree sink
  | .evaluate tree => evaluate tree
  | .list sink => list sink
  | .listAnnotated sink => listAnnotated sink
  | .countOperators sink => countOperators sink

/-- Takes a step. A step that needs an unknown name changes nothing. -/
def take (step : Step) (s : Session) : Answer × Session :=
  match (work step).run s with
  | .ok answer s' => (answer, s')
  | .error name _ => (.unknownName name, s)

/-- Takes the step of a command if all names that are mentioned with it are known. -/
def obey (command : Command) (s : Session) : Answer × Session :=
  match command.mentioned.find? (!s.knows ·) with
  | some name => (.unknownName name, s)
  | none => take command.step s

/-- Obeys all commands, one after another. -/
def run : List Command → Session → List Answer × Session
  | [], s => ([], s)
  | command :: commands, s =>
    let (answer, s) := obey command s
    let (answers, s) := run commands s
    (answer :: answers, s)

end Session

end ThreeAddress

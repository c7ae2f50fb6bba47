import TSDuck.Library.SortedMap
import TSDuck.Tlv.Analyzer

/-!
# Analysis of TLV messages

A `Protocol` defines the commands of its messages and, for each of them, its parameters: the range
of the size of the value, or the protocol of a compound parameter, and the range of the number of
occurrences. `analyzeMessage` is given a number of levels, which the number of bytes of the message
bounds since a compound parameter is shorter than the message that contains it.

`Accepted` is the language of the messages of a protocol.
-/

universe u

namespace TSDuck.Tlv

structure ParameterDef (Name : Type u) where
  compound : Option Name
  minSize : ℕ
  maxSize : ℕ
  minCount : ℕ
  maxCount : ℕ

abbrev ParameterMap (Name : Type u) := SortedMap Tag (ParameterDef Name)

/-- The syntax of a TLV protocol. -/
structure Protocol (Name : Type u) where
  version : Option UInt8
  commands : SortedMap Tag (ParameterMap Name)

/-- The errors of the analysis of a message. -/
inductive ErrorStatus
  | unsupportedVersion
  | invalidMessage
  | unknownCommandTag
  | unknownParameterTag
  | invalidParameterLength
  | invalidParameterCount
  | missingParameter
  deriving DecidableEq

/-- An offset in the message or the tag of a parameter. -/
structure AnalysisError where
  status : ErrorStatus
  info : ℕ
  infoIsOffset : Bool
  deriving DecidableEq

def AnalysisError.atOffset (status : ErrorStatus) (offset : ℕ) : AnalysisError where
  status := status
  info := offset % 65536
  infoIsOffset := true

/-- The error of a compound parameter, at an offset. -/
def AnalysisError.inCompound (error : AnalysisError) (offset : ℕ) : AnalysisError :=
  if error.infoIsOffset then { error with info := (error.info + offset % 65536) % 65536 } else error

/-- A parameter, which may have a message of its own. -/
inductive Parameter
  | plain (tag : Tag) (value : ByteBlock)
  | compound (tag : Tag) (value : ByteBlock) (version : UInt8) (commandTag : Tag)
      (params : List Parameter)

def Parameter.tag : Parameter → Tag
  | .plain tag _ => tag
  | .compound tag _ _ _ _ => tag

structure Message where
  protocolVersion : UInt8
  commandTag : Tag
  params : List Parameter

variable {Name : Type u}

def countStatus (count : ℕ) (desc : ParameterDef Name) : ErrorStatus :=
  if count = 0 ∧ 0 < desc.minCount then .missingParameter else .invalidParameterCount

/-- The first parameter whose count is out of range. -/
def countError (params : List Parameter) : List (Tag × ParameterDef Name) → Option AnalysisError
  | [] => none
  | (tag, desc) :: others =>
    let count := (params.map Parameter.tag).count tag
    if count < desc.minCount ∨ desc.maxCount < count then
      some { status := countStatus count desc, info := tag.val, infoIsOffset := false }
    else countError params others

section Analyze

variable (analyzeCompound : Name → ByteBlock → Except AnalysisError Message)

def analyzeParameter (defined : ParameterMap Name) (base : ℕ) (anl : Analyzer) :
    Except AnalysisError Parameter :=
  match defined.find? anl.tag with
  | none => .error (.atOffset .unknownParameterTag (base + anl.tlvAddr))
  | some desc =>
    match desc.compound with
    | some protocol =>
      match analyzeCompound protocol anl.field with
      | .error error => .error (error.inCompound (base + anl.tlvAddr))
      | .ok message =>
        .ok (.compound anl.tag anl.value message.protocolVersion message.commandTag message.params)
    | none =>
      if anl.length < desc.minSize ∨ desc.maxSize < anl.length then
        .error (.atOffset .invalidParameterLength (base + anl.tlvAddr))
      else .ok (.plain anl.tag anl.value)

/-- Analyzes the parameters, in a number of turns. -/
def analyzeParameters (defined : ParameterMap Name) (base : ℕ) :
    ℕ → Analyzer → List Parameter → Except AnalysisError (List Parameter)
  | 0, _, params => .ok params
  | turns + 1, anl, params =>
    if anl.eom then
      if anl.valid then .ok params else .error (.atOffset .invalidMessage (base + anl.tlvAddr))
    else
      match analyzeParameter analyzeCompound defined base anl with
      | .error error => .error error
      | .ok parameter => analyzeParameters defined base turns anl.next (params ++ [parameter])

def analyzeCommand (protocol : Protocol Name) (version : UInt8) (headerSize : ℕ)
    (message : ByteBlock) : Except AnalysisError Message :=
  let command := Analyzer.start (message.drop headerSize)
  if command.eom || !command.valid then .error (.atOffset .invalidMessage headerSize)
  else
    match protocol.commands.find? command.tag with
    | none => .error (.atOffset .unknownCommandTag headerSize)
    | some defined =>
      match analyzeParameters analyzeCompound defined (headerSize + command.valueAddr)
        (command.length + 1) (Analyzer.start command.value) [] with
      | .error error => .error error
      | .ok params =>
        match countError params defined.entries with
        | some error => .error error
        | none => .ok ⟨version, command.tag, params⟩

end Analyze

/-- Analyzes a message, in a number of levels. -/
def analyzeMessage (protocols : Name → Protocol Name) :
    ℕ → Name → ByteBlock → Except AnalysisError Message
  | 0, _, _ => .error (.atOffset .invalidMessage 0)
  | levels + 1, name, message =>
    match (protocols name).version with
    | none => analyzeCommand (analyzeMessage protocols levels) (protocols name) 0 0 message
    | some version =>
      if message.length < 1 then .error (.atOffset .invalidMessage 0)
      else if byteAt message 0 ≠ version then .error (.atOffset .unsupportedVersion 0)
      else analyzeCommand (analyzeMessage protocols levels) (protocols name) version 1 message

def analyze (protocols : Name → Protocol Name) (name : Name) (message : ByteBlock) :
    Except AnalysisError Message :=
  analyzeMessage protocols (message.length + 1) name message

/-- The number of occurrences of each parameter is in its range. -/
def CountsInRange (defined : ParameterMap Name) (tags : List Tag) : Prop :=
  ∀ entry ∈ defined.entries,
    entry.2.minCount ≤ tags.count entry.1 ∧ tags.count entry.1 ≤ entry.2.maxCount

def Protocol.header (protocol : Protocol Name) : ByteBlock :=
  protocol.version.toList

/-- The version of the protocol when it has one, a field for a known command and anything after it.
The command has fields for known parameters, each with a length in its range or a message of its
protocol, as many times as allowed. -/
inductive Accepted (protocols : Name → Protocol Name) : Name → ByteBlock → Prop
  | intro (name : Name) (command : Field) (defined : ParameterMap Name) (fields : List Field)
      (trailing : ByteBlock)
      (hcommand : (protocols name).commands.find? command.tag = some defined)
      (hvalue : command.value = fields.flatMap Field.bytes)
      (hknown : ∀ field ∈ fields, (defined.find? field.tag).isSome = true)
      (hplain : ∀ field ∈ fields, ∀ desc, defined.find? field.tag = some desc →
        desc.compound = none → desc.minSize ≤ field.value.length ∧ field.value.length ≤ desc.maxSize)
      (hcompound : ∀ field ∈ fields, ∀ desc other, defined.find? field.tag = some desc →
        desc.compound = some other → Accepted protocols other field.bytes)
      (hcounts : CountsInRange defined (fields.map Field.tag)) :
      Accepted protocols name ((protocols name).header ++ command.bytes ++ trailing)

end TSDuck.Tlv

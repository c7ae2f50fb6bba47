import TSDuck.Tlv.MessageAcceptance

/-!
# Serialization of TLV messages

A `Serializer` appends fields to a block. Serializers on the same block are nested to build compound
parameters, so a message is a tree of parameters.

A tree of allowed parameters which takes less than 65536 bytes is serialized as a message that the
analysis accepts, with the same parameters in the same order (`analyze_serialize`).
-/

universe u

namespace TSDuck.Tlv

/-- A serializer. The block is shared with the nested serializers. -/
structure Serializer where
  bb : ByteBlock
  lengthOffset : Option ℕ

namespace Serializer

def nested (zer : Serializer) : Serializer where
  bb := zer.bb
  lengthOffset := none

def putUInt8 (zer : Serializer) (i : UInt8) : Serializer :=
  { zer with bb := zer.bb ++ [i] }

def put (zer : Serializer) (tag : Tag) (bl : ByteBlock) : Serializer :=
  { zer with bb := zer.bb ++ putUInt16 tag.val ++ putUInt16 (bl.length % 65536) ++ bl }

/-- Opens a structure, none when one is already open. -/
def openTLV (zer : Serializer) (tag : Tag) : Option Serializer :=
  match zer.lengthOffset with
  | some _ => none
  | none =>
    let bb := zer.bb ++ putUInt16 tag.val
    some { bb := bb ++ putUInt16 0, lengthOffset := some bb.length }

/-- Closes the structure, none when there is no open one. -/
def closeTLV (zer : Serializer) : Option Serializer :=
  match zer.lengthOffset with
  | none => none
  | some offset =>
    if zer.bb.length < offset + 2 then none
    else
      let length := zer.bb.length - offset - 2
      some
        { bb := writeBytes zer.bb offset (putUInt16 (length % 65536))
          lengthOffset := none }

end Serializer

/-- A parameter to serialize: a value or the parameters of a compound. -/
inductive Tree
  | leaf (tag : Tag) (value : ByteBlock)
  | node (tag : Tag) (children : List Tree)

namespace Tree

def tag : Tree → Tag
  | leaf tag _ => tag
  | node tag _ => tag

mutual

/-- Serializes a parameter, with a nested serializer. -/
def serialize : Tree → Serializer → Option Serializer
  | leaf tag value, zer => some (zer.put tag value)
  | node tag children, zer =>
    (zer.nested.openTLV tag).bind fun opened ↦
      (serializeParameters children opened).bind fun filled ↦
        filled.closeTLV.map fun closed ↦ { zer with bb := closed.bb }

def serializeParameters : List Tree → Serializer → Option Serializer
  | [], zer => some zer
  | tree :: trees, zer => (tree.serialize zer).bind (serializeParameters trees)

end

mutual

def value : Tree → ByteBlock
  | leaf _ value => value
  | node _ children => parametersBytes children

def parametersBytes : List Tree → ByteBlock
  | [] => []
  | tree :: trees =>
    putUInt16 tree.tag.val ++ putUInt16 (tree.value.length % 65536) ++ tree.value ++
      parametersBytes trees

end

mutual

def parameter : Tree → Parameter
  | leaf tag value => .plain tag value
  | node tag children => .compound tag (parametersBytes children) 0 tag (parameters children)

def parameters : List Tree → List Parameter
  | [] => []
  | tree :: trees => tree.parameter :: parameters trees

end

end Tree

def serialize (version : Option UInt8) (tag : Tag) (trees : List Tree) (zer : Serializer) :
    Option Serializer :=
  let zer :=
    match version with
    | none => zer
    | some version => zer.putUInt8 version
  (zer.nested.openTLV tag).bind fun opened ↦
    (Tree.serializeParameters trees opened).bind fun filled ↦
      filled.closeTLV.map fun closed ↦ { zer with bb := closed.bb }

theorem closeTLV_openTLV (zer : Serializer) (tag : Tag)
    (fill : Serializer → Option Serializer) (bytes : ByteBlock)
    (hfill : ∀ zer, fill zer = some { zer with bb := zer.bb ++ bytes }) :
    ((zer.nested.openTLV tag).bind fun opened ↦ (fill opened).bind fun filled ↦
        filled.closeTLV.map fun closed ↦ { zer with bb := closed.bb }) =
      some { zer with
        bb := zer.bb ++ (putUInt16 tag.val ++ putUInt16 (bytes.length % 65536) ++ bytes) } := by
  have hopen : zer.nested.openTLV tag = some ⟨zer.bb ++ putUInt16 tag.val ++ putUInt16 0,
        some (zer.bb ++ putUInt16 tag.val).length⟩ := rfl
  rw [hopen, Option.bind_some, hfill, Option.bind_some]
  generalize hfront : zer.bb ++ putUInt16 tag.val = front
  have hlength : (front ++ putUInt16 0 ++ bytes).length = front.length + 2 + bytes.length := by
    simp only [putUInt16, List.length_append, List.length_cons, List.length_nil]
  have hvalue : front.length + 2 + bytes.length - front.length - 2 = bytes.length := by omega
  have hsize : (putUInt16 0).length = (putUInt16 (bytes.length % 65536)).length := rfl
  have hwrite : writeBytes (front ++ (putUInt16 0 ++ bytes)) front.length
        (putUInt16 (bytes.length % 65536)) =
      front ++ (putUInt16 (bytes.length % 65536) ++ bytes) := writeBytes_append front hsize bytes
  rw [Serializer.closeTLV]
  dsimp only
  rw [hlength, if_neg (by omega), hvalue, List.append_assoc front, hwrite, Option.map_some, ← hfront]
  simp only [List.append_assoc]

mutual

theorem Tree.serialize_eq (tree : Tree) (zer : Serializer) :
    tree.serialize zer = some { zer with
      bb := zer.bb ++ (putUInt16 tree.tag.val ++ putUInt16 (tree.value.length % 65536) ++
        tree.value) } := by
  cases tree with
  | leaf tag value =>
    rw [serialize, Serializer.put, Tree.value]
    simp only [List.append_assoc, Tree.tag]
  | node tag children =>
    rw [serialize, closeTLV_openTLV zer tag _ _ (Tree.serializeParameters_eq children), Tree.value]
    rfl

theorem Tree.serializeParameters_eq (trees : List Tree) (zer : Serializer) :
    serializeParameters trees zer = some { zer with bb := zer.bb ++ parametersBytes trees } := by
  cases trees with
  | nil => rw [serializeParameters, parametersBytes, List.append_nil]
  | cons tree trees =>
    rw [serializeParameters, Tree.serialize_eq tree, Option.bind_some,
      Tree.serializeParameters_eq trees, parametersBytes]
    simp only [List.append_assoc]

end

theorem serialize_eq (version : Option UInt8) (tag : Tag) (trees : List Tree) (zer : Serializer) :
    serialize version tag trees zer = some { zer with
      bb := zer.bb ++ (version.toList ++ (putUInt16 tag.val ++
        putUInt16 ((Tree.parametersBytes trees).length % 65536) ++ Tree.parametersBytes trees)) } := by
  unfold serialize
  cases version with
  | none =>
    dsimp only
    rw [closeTLV_openTLV zer tag _ _ (Tree.serializeParameters_eq trees)]
    rfl
  | some version =>
    dsimp only
    rw [closeTLV_openTLV (zer.putUInt8 version) tag _ _ (Tree.serializeParameters_eq trees)]
    simp only [Serializer.putUInt8, Option.toList_some, List.append_assoc]

namespace Tree

def field (tree : Tree) : Field where
  tag := tree.tag
  value := tree.value.take 65535
  length_lt := by
    rw [List.length_take]
    omega

theorem value_field {tree : Tree} (hfits : tree.value.length < 65536) :
    tree.field.value = tree.value :=
  List.take_of_length_le (by omega)

theorem bytes_field {tree : Tree} (hfits : tree.value.length < 65536) :
    tree.field.bytes =
      putUInt16 tree.tag.val ++ putUInt16 (tree.value.length % 65536) ++ tree.value := by
  rw [Field.bytes, value_field hfits, Nat.mod_eq_of_lt hfits]
  rfl

theorem length_value_le_of_mem {tree : Tree} {trees : List Tree} (htree : tree ∈ trees) :
    4 + tree.value.length ≤ (parametersBytes trees).length := by
  induction trees with
  | nil => cases htree
  | cons head others ih =>
    simp only [parametersBytes, putUInt16, List.length_append, List.length_cons, List.length_nil]
    obtain rfl | hothers := List.mem_cons.mp htree
    · omega
    · have hlength := ih hothers
      omega

theorem flatMap_bytes_field {trees : List Tree} (hfits : (parametersBytes trees).length < 65536) :
    (trees.map field).flatMap Field.bytes = parametersBytes trees := by
  induction trees with
  | nil => rw [parametersBytes, List.map_nil, List.flatMap_nil]
  | cons tree trees ih =>
    have htree := length_value_le_of_mem (List.mem_cons_self : tree ∈ tree :: trees)
    have hvalue : tree.value.length < 65536 := by omega
    rw [parametersBytes, List.length_append] at hfits
    rw [List.map_cons, List.flatMap_cons, bytes_field hvalue, ih (by omega), parametersBytes]

theorem map_tag_field (trees : List Tree) :
    (trees.map field).map Field.tag = trees.map tag := by
  rw [List.map_map]
  rfl

end Tree

variable {Name : Type u}

/-- The parameters are defined, with a length in the range or allowed parameters of their own, and
occur as many times as allowed. A compound one has no version and its tag is its command. -/
inductive Allowed (protocols : Name → Protocol Name) : Name → Tag → List Tree → Prop
  | intro (name : Name) (commandTag : Tag) (defined : ParameterMap Name) (trees : List Tree)
      (hcommand : (protocols name).commands.find? commandTag = some defined)
      (hknown : ∀ tree ∈ trees, (defined.find? tree.tag).isSome = true)
      (hleaf : ∀ tag value, .leaf tag value ∈ trees → ∀ desc, defined.find? tag = some desc →
        desc.compound = none ∧ desc.minSize ≤ value.length ∧ value.length ≤ desc.maxSize)
      (hnode : ∀ tag children, .node tag children ∈ trees → ∀ desc, defined.find? tag = some desc →
        ∃ other, desc.compound = some other)
      (hversion : ∀ tag children, .node tag children ∈ trees → ∀ desc other,
        defined.find? tag = some desc → desc.compound = some other →
          (protocols other).version = none)
      (hallowed : ∀ tag children, .node tag children ∈ trees → ∀ desc other,
        defined.find? tag = some desc → desc.compound = some other →
          Allowed protocols other tag children)
      (hcounts : CountsInRange defined (trees.map Tree.tag)) :
      Allowed protocols name commandTag trees

def commandField (tag : Tag) (trees : List Tree)
    (hfits : (Tree.parametersBytes trees).length < 65536) : Field :=
  ⟨tag, Tree.parametersBytes trees, hfits⟩

theorem forall₂_reads_of_trees {analyzeCompound : Name → ByteBlock → Except AnalysisError Message}
    {defined : ParameterMap Name} (trees : List Tree)
    (hreads : ∀ tree ∈ trees, Reads analyzeCompound defined tree.field tree.parameter) :
    List.Forall₂ (Reads analyzeCompound defined) (trees.map Tree.field) (Tree.parameters trees) := by
  induction trees with
  | nil =>
    rw [Tree.parameters]
    exact .nil
  | cons tree trees ih =>
    rw [List.forall_mem_cons] at hreads
    rw [Tree.parameters]
    exact .cons hreads.1 (ih hreads.2)

/-- Allowed parameters are analyzed from their bytes. -/
theorem analyzeMessage_commandField {protocols : Name → Protocol Name} {name : Name} {tag : Tag}
    {trees : List Tree} (hallowed : Allowed protocols name tag trees)
    (hfits : (Tree.parametersBytes trees).length < 65536) (levels : ℕ)
    (hlevels : 4 + (Tree.parametersBytes trees).length < levels) :
    analyzeMessage protocols levels name
        ((protocols name).header ++ (commandField tag trees hfits).bytes) =
      .ok ⟨(protocols name).version.getD 0, tag, Tree.parameters trees⟩ := by
  induction hallowed generalizing levels with
  | intro name commandTag defined trees hcommand hknown hleaf hnode hversion _ hcounts ih =>
    cases levels with
    | zero => omega
    | succ levels =>
      rw [analyzeMessage_succ_eq_ok_iff]
      refine ⟨commandField commandTag trees hfits, [], defined, trees.map Tree.field,
        Tree.parameters trees, (List.append_nil _).symm, hcommand,
        (Tree.flatMap_bytes_field hfits).symm, forall₂_reads_of_trees trees ?_, ?_, rfl⟩
      · intro tree htree
        have hlength := Tree.length_value_le_of_mem htree
        have hvalue : tree.value.length < 65536 := by omega
        obtain ⟨desc, hdesc⟩ := Option.isSome_iff_exists.mp (hknown tree htree)
        refine ⟨desc, hdesc, ?_⟩
        rw [Tree.value_field hvalue]
        cases tree with
        | leaf tag value =>
          obtain ⟨hnone, hmin, hmax⟩ := hleaf tag value htree desc hdesc
          left
          refine ⟨hnone, ?_, ?_, ?_⟩
          · rw [Tree.value]
            exact hmin
          · rw [Tree.value]
            exact hmax
          · rw [Tree.parameter, Tree.value]
            rfl
        | node tag children =>
          obtain ⟨other, hother⟩ := hnode tag children htree desc hdesc
          right
          have hnone := hversion tag children htree desc other hdesc hother
          have hchildren : (Tree.node tag children).value = Tree.parametersBytes children := by
            rw [Tree.value]
          rw [hchildren] at hlength hvalue
          have hok := ih tag children htree desc other hdesc hother hvalue levels (by omega)
          have htag : (Tree.node tag children).field.tag = (commandField tag children hvalue).tag :=
            rfl
          have hfield : (Tree.node tag children).field = commandField tag children hvalue := by
            apply Field.ext htag
            rw [Tree.value_field (by rw [hchildren]; exact hvalue), hchildren]
            rfl
          rw [Protocol.header, hnone, Option.toList_none, List.nil_append, ← hfield] at hok
          refine ⟨other, _, hother, hok, ?_⟩
          rw [Tree.parameter, hchildren]
          rfl
      · rw [Tree.map_tag_field]
        exact hcounts

theorem analyze_serialize {protocols : Name → Protocol Name} {name : Name} {tag : Tag}
    {trees : List Tree} (hallowed : Allowed protocols name tag trees)
    (hfits : (Tree.parametersBytes trees).length < 65536) (zer : Serializer) :
    ∃ bytes, serialize (protocols name).version tag trees zer =
        some { zer with bb := zer.bb ++ bytes } ∧
      analyze protocols name bytes =
        .ok ⟨(protocols name).version.getD 0, tag, Tree.parameters trees⟩ := by
  refine ⟨(protocols name).header ++ (commandField tag trees hfits).bytes, ?_, ?_⟩
  · rw [serialize_eq, Nat.mod_eq_of_lt hfits]
    rfl
  · apply analyzeMessage_commandField hallowed
    rw [List.length_append, Field.length_bytes]
    show 4 + (Tree.parametersBytes trees).length < _ + (4 + (Tree.parametersBytes trees).length) + 1
    omega

/-- A message is analyzed if and only if it is one of its protocol. Otherwise the error has the tag
of a parameter, or an offset inside the message or at its end. Allowed parameters of less than 65536
bytes are serialized and analyzed, in order. -/
theorem analyze_correct (protocols : Name → Protocol Name) (name : Name) :
    (∀ message, (∃ result, analyze protocols name message = .ok result) ↔
      Accepted protocols name message) ∧
    (∀ message error, analyze protocols name message = .error error →
      error.IsInside protocols message.length ∨ message.length ≤ (protocols name).header.length ∧
          error = .atOffset .invalidMessage message.length) ∧
    ∀ tag trees, Allowed protocols name tag trees → (Tree.parametersBytes trees).length < 65536 →
      ∀ zer, ∃ bytes, serialize (protocols name).version tag trees zer =
          some { zer with bb := zer.bb ++ bytes } ∧
        analyze protocols name bytes =
          .ok ⟨(protocols name).version.getD 0, tag, Tree.parameters trees⟩ := by
  refine ⟨analyze_ok_iff_accepted protocols name, ?_, ?_⟩
  · intro message error herror
    exact isInside_of_analyzeMessage _ (Nat.lt_succ_self _) herror
  · intro tag trees hallowed hfits zer
    exact analyze_serialize hallowed hfits zer

/-- A command with a mandatory parameter of one byte. -/
def mandatory : Unit → Protocol Unit := fun _ ↦
  { version := none
    commands := ⟨[(1, ⟨[(5, ⟨none, 1, 1, 1, 1⟩)], List.pairwise_singleton _ _⟩)],
      List.pairwise_singleton _ _⟩ }

theorem allowed_mandatory (byte : UInt8) : Allowed mandatory () 1 [.leaf 5 [byte]] := by
  apply Allowed.intro () 1 ⟨[(5, ⟨none, 1, 1, 1, 1⟩)], List.pairwise_singleton _ _⟩ _ rfl
  · intro tree htree
    rw [List.mem_singleton.mp htree]
    rfl
  · intro tag value htree desc hdesc
    cases List.mem_singleton.mp htree
    cases hdesc
    exact ⟨rfl, le_refl 1, le_refl 1⟩
  · intro tag children htree
    cases List.mem_singleton.mp htree
  · intro tag children htree
    cases List.mem_singleton.mp htree
  · intro tag children htree
    cases List.mem_singleton.mp htree
  · intro entry hentry
    rw [List.mem_singleton.mp hentry]
    exact ⟨le_refl 1, le_refl 1⟩

/-- The mandatory parameter is serialized and analyzed. -/
theorem analyze_correct_mandatory :
    ∃ bytes, serialize none 1 [.leaf 5 [7]] ⟨[], none⟩ = some ⟨[] ++ bytes, none⟩ ∧
      analyze mandatory () bytes = .ok ⟨0, 1, Tree.parameters [.leaf 5 [7]]⟩ :=
  (analyze_correct mandatory ()).2.2 1 [.leaf 5 [7]] (allowed_mandatory 7) (by decide) ⟨[], none⟩

/-- The error is not at an offset inside the message. -/
theorem not_isOffset_missing_parameter :
    ¬ ∀ message error, analyze mandatory () message = .error error →
      error.infoIsOffset = true ∧ error.info < message.length := by
  intro hinside
  have hoffset := (hinside [0, 1, 0, 0] ⟨.missingParameter, 5, false⟩ rfl).1
  cases hoffset

end TSDuck.Tlv

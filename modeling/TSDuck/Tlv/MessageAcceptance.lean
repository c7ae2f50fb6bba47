import TSDuck.Tlv.MessageFactory

/-!
# Accepted TLV messages

The analysis of a list of parameters succeeds on the concatenations of fields which are read one by
one (`analyzeParameters_eq_ok_iff`), and the one of a command on a complete field with such a value
and the right counts (`analyzeCommand_eq_ok_iff`). By induction on the levels of compound parameters,
a message is analyzed exactly when it is one of the protocol (`analyze_ok_iff_accepted`).
-/

universe u

namespace TSDuck.Tlv

variable {Name : Type u}

/-! ### One parameter -/

namespace Analyzer

/-- The analyzer has read a part of its block. -/
def At (anl : Analyzer) (front rest : ByteBlock) : Prop :=
  match readField rest with
  | some (found, tail) => AtField anl front found tail
  | none => AtEnd anl front rest

variable {anl : Analyzer} {front : ByteBlock}

theorem At.atField {rest tail : ByteBlock} {found : Field} (hat : At anl front rest)
    (hread : readField rest = some (found, tail)) :
    AtField anl front found tail := by
  rw [At, hread] at hat
  exact hat

theorem At.atEnd {rest : ByteBlock} (hat : At anl front rest) (hread : readField rest = none) :
    AtEnd anl front rest := by
  rw [At, hread] at hat
  exact hat

theorem at_start (data : ByteBlock) : At (start data) [] data := by
  rw [At]
  split
  · next found tail hread => exact start_of_field hread
  · next hread => exact start_of_none hread

theorem AtField.at_next {tail : ByteBlock} {found : Field} (hfield : AtField anl front found tail) :
    At anl.next (front ++ found.bytes) tail := by
  rw [At]
  split
  · next other rest hread => exact hfield.next_of_field hread
  · next hread => exact hfield.next_of_none hread

end Analyzer

section Parameters

variable (analyzeCompound : Name → ByteBlock → Except AnalysisError Message)
  (defined : ParameterMap Name)

/-- A field is analyzed as a parameter. -/
def Reads (field : Field) (parameter : Parameter) : Prop :=
  ∃ desc, defined.find? field.tag = some desc ∧
    ((desc.compound = none ∧ desc.minSize ≤ field.value.length ∧
        field.value.length ≤ desc.maxSize ∧ parameter = .plain field.tag field.value) ∨
      ∃ protocol message, desc.compound = some protocol ∧
        analyzeCompound protocol field.bytes = .ok message ∧
        parameter = .compound field.tag field.value message.protocolVersion message.commandTag
          message.params)

variable {analyzeCompound defined}

theorem Reads.tag_eq {field : Field} {parameter : Parameter}
    (hreads : Reads analyzeCompound defined field parameter) : parameter.tag = field.tag := by
  obtain ⟨desc, -, ⟨-, -, -, rfl⟩ | ⟨protocol, message, -, -, rfl⟩⟩ := hreads
  · rfl
  · rfl

theorem map_tag_of_reads {fields : List Field} {params : List Parameter}
    (hreads : List.Forall₂ (Reads analyzeCompound defined) fields params) :
    params.map Parameter.tag = fields.map Field.tag := by
  induction hreads with
  | nil => rfl
  | cons hhead htail ih => rw [List.map_cons, List.map_cons, hhead.tag_eq, ih]

/-- The current parameter is analyzed as its field. -/
theorem analyzeParameter_eq_ok_iff {anl : Analyzer} {front tail : ByteBlock} {found : Field}
    (hfield : Analyzer.AtField anl front found tail) (base : ℕ) (parameter : Parameter) :
    analyzeParameter analyzeCompound defined base anl = .ok parameter ↔
      Reads analyzeCompound defined found parameter := by
  rw [analyzeParameter, hfield.tag, hfield.field_eq, hfield.value_eq, hfield.length, Reads]
  cases hdesc : defined.find? found.tag with
  | none =>
    constructor
    · intro h
      cases h
    · rintro ⟨desc, h, -⟩
      cases h
  | some desc =>
    dsimp only
    cases hcompound : desc.compound with
    | none =>
      dsimp only
      by_cases hlength : found.value.length < desc.minSize ∨ desc.maxSize < found.value.length
      · rw [if_pos hlength]
        constructor
        · intro h
          cases h
        · rintro ⟨desc', h, ⟨-, hmin, hmax, -⟩ | ⟨protocol, message, hsome, -⟩⟩
          · cases h
            omega
          · cases h
            rw [hcompound] at hsome
            cases hsome
      · rw [if_neg hlength]
        rw [not_or, not_lt, not_lt] at hlength
        constructor
        · intro h
          exact ⟨desc, rfl, .inl ⟨hcompound, hlength.1, hlength.2, (Except.ok.inj h).symm⟩⟩
        · rintro ⟨desc', h, ⟨-, -, -, rfl⟩ | ⟨protocol, message, hsome, -⟩⟩
          · rfl
          · cases h
            rw [hcompound] at hsome
            cases hsome
    | some protocol =>
      dsimp only
      cases hanalyze : analyzeCompound protocol found.bytes with
      | error error =>
        dsimp only
        constructor
        · intro h
          cases h
        · rintro ⟨desc', h, ⟨hnone, -⟩ | ⟨protocol', message, hsome, hok, -⟩⟩
          · cases h
            rw [hcompound] at hnone
            cases hnone
          · cases h
            rw [hcompound] at hsome
            cases hsome
            rw [hanalyze] at hok
            cases hok
      | ok message =>
        dsimp only
        constructor
        · intro h
          exact ⟨desc, rfl, .inr ⟨protocol, message, hcompound, hanalyze, (Except.ok.inj h).symm⟩⟩
        · rintro ⟨desc', h, ⟨hnone, -⟩ | ⟨protocol', message', hsome, hok, rfl⟩⟩
          · cases h
            rw [hcompound] at hnone
            cases hnone
          · cases h
            rw [hcompound] at hsome
            cases hsome
            rw [hanalyze] at hok
            cases hok
            rfl

/-! ### The list of parameters -/

/-- The rest of the block is made of parameter fields. -/
theorem analyzeParameters_eq_ok_iff (base turns : ℕ) {anl : Analyzer} {front rest : ByteBlock}
    (hat : Analyzer.At anl front rest) (hturns : rest.length < turns) (params result :
      List Parameter) :
    analyzeParameters analyzeCompound defined base turns anl params = .ok result ↔
      ∃ fields found, rest = fields.flatMap Field.bytes ∧
        List.Forall₂ (Reads analyzeCompound defined) fields found ∧ result = params ++ found := by
  induction turns generalizing anl front rest params with
  | zero => omega
  | succ turns ih =>
    rw [analyzeParameters]
    cases hread : readField rest with
    | none =>
      have hend := hat.atEnd hread
      rw [hend.eom, if_pos rfl, hend.valid]
      cases rest with
      | nil =>
        rw [List.isEmpty_nil, if_pos rfl]
        constructor
        · intro h
          exact ⟨[], [], rfl, .nil, by rw [List.append_nil, Except.ok.inj h]⟩
        · rintro ⟨fields, found, hbytes, hreads, rfl⟩
          cases hreads with
          | nil => rw [List.append_nil]
          | cons hhead htail =>
            have hlength := congrArg List.length hbytes
            rw [List.flatMap_cons, List.length_append, Field.length_bytes, List.length_nil]
              at hlength
            omega
      | cons byte rest =>
        rw [List.isEmpty_cons, if_neg Bool.false_ne_true]
        constructor
        · intro h
          cases h
        · rintro ⟨fields, found, hbytes, hreads, rfl⟩
          cases hreads with
          | nil => cases hbytes
          | cons hhead htail =>
            rw [hbytes, List.flatMap_cons, readField_append] at hread
            cases hread
    | some pair =>
      obtain ⟨field, tail⟩ := pair
      have hfield := hat.atField hread
      have hlength := length_lt_of_readField hread
      rw [hfield.eom, if_neg Bool.false_ne_true]
      have hstep (parameter : Parameter) :
          analyzeParameter analyzeCompound defined base anl = .ok parameter ↔
            Reads analyzeCompound defined field parameter :=
        analyzeParameter_eq_ok_iff hfield base parameter
      cases hanalyze : analyzeParameter analyzeCompound defined base anl with
      | error error =>
        dsimp only
        constructor
        · intro h
          cases h
        · rintro ⟨fields, found, hbytes, hreads, rfl⟩
          cases hreads with
          | nil =>
            rw [hbytes] at hlength
            exact absurd hlength (Nat.not_lt_zero _)
          | cons hhead htail =>
            rw [hbytes, List.flatMap_cons, readField_append] at hread
            cases hread
            rw [← hstep, hanalyze] at hhead
            cases hhead
      | ok parameter =>
        dsimp only
        have hparameter := (hstep parameter).mp hanalyze
        rw [ih hfield.at_next (by omega)]
        constructor
        · rintro ⟨fields, found, htail, hreads, rfl⟩
          refine ⟨field :: fields, parameter :: found, ?_, .cons hparameter hreads, ?_⟩
          · rw [List.flatMap_cons, ← htail, eq_of_readField hread]
          · rw [List.append_assoc, List.singleton_append]
        · rintro ⟨fields, found, hbytes, hreads, rfl⟩
          cases hreads with
          | nil =>
            rw [hbytes] at hlength
            exact absurd hlength (Nat.not_lt_zero _)
          | cons hhead htail =>
            rename_i others found
            rw [hbytes, List.flatMap_cons, readField_append] at hread
            cases hread
            rw [← hstep, hanalyze] at hhead
            cases hhead
            refine ⟨others, found, rfl, htail, ?_⟩
            rw [List.append_assoc, List.singleton_append]

/-- There is no error on the counts when each of them is in its range. -/
theorem countError_eq_none_iff (params : List Parameter) (entries : List (Tag × ParameterDef Name)) :
    countError params entries = none ↔
      ∀ entry ∈ entries, entry.2.minCount ≤ (params.map Parameter.tag).count entry.1 ∧
        (params.map Parameter.tag).count entry.1 ≤ entry.2.maxCount := by
  induction entries with
  | nil => simp [countError]
  | cons entry others ih =>
    obtain ⟨tag, desc⟩ := entry
    rw [countError, List.forall_mem_cons]
    dsimp only
    split_ifs with hcount
    · constructor
      · intro h
        cases h
      · rintro ⟨⟨hmin, hmax⟩, -⟩
        omega
    · rw [ih]
      constructor
      · intro h
        exact ⟨by omega, h⟩
      · rintro ⟨-, h⟩
        exact h

end Parameters

/-! ### The command -/

section Command

variable {analyzeCompound : Name → ByteBlock → Except AnalysisError Message}

/-- A complete field for a known command with its parameters is analyzed. -/
theorem analyzeCommand_eq_ok_iff (protocol : Protocol Name) (version : UInt8) (headerSize : ℕ)
    (message : ByteBlock) (result : Message) :
    analyzeCommand analyzeCompound protocol version headerSize message = .ok result ↔
      ∃ (command : Field) (trailing : ByteBlock) (defined : ParameterMap Name)
        (fields : List Field) (params : List Parameter),
        message.drop headerSize = command.bytes ++ trailing ∧
        protocol.commands.find? command.tag = some defined ∧
        command.value = fields.flatMap Field.bytes ∧
        List.Forall₂ (Reads analyzeCompound defined) fields params ∧
        CountsInRange defined (fields.map Field.tag) ∧ result = ⟨version, command.tag, params⟩ := by
  rw [analyzeCommand]
  cases hread : readField (message.drop headerSize) with
  | none =>
    have hend := (Analyzer.at_start (message.drop headerSize)).atEnd hread
    rw [hend.eom, Bool.true_or, if_pos rfl]
    constructor
    · intro h
      cases h
    · rintro ⟨command, trailing, -, -, -, hbytes, -⟩
      rw [hbytes, readField_append] at hread
      cases hread
  | some pair =>
    obtain ⟨command, trailing⟩ := pair
    have hcommand := (Analyzer.at_start (message.drop headerSize)).atField hread
    have hunique : ∀ {command' : Field} {trailing' : ByteBlock},
        message.drop headerSize = command'.bytes ++ trailing' → command' = command := by
      intro command' trailing' hbytes
      rw [hbytes, readField_append] at hread
      cases hread
      rfl
    rw [hcommand.eom, hcommand.valid, if_neg (by decide), hcommand.tag, hcommand.value_eq,
      hcommand.length]
    cases hdefined : protocol.commands.find? command.tag with
    | none =>
      dsimp only
      constructor
      · intro h
        cases h
      · rintro ⟨command', trailing', defined, -, -, hbytes, hfind, -⟩
        rw [hunique hbytes, hdefined] at hfind
        cases hfind
    | some defined =>
      dsimp only
      have hparams (result : List Parameter) :
          analyzeParameters analyzeCompound defined
              (headerSize + (Analyzer.start (message.drop headerSize)).valueAddr)
              (command.value.length + 1) (Analyzer.start command.value) [] = .ok result ↔
            ∃ fields found, command.value = fields.flatMap Field.bytes ∧
              List.Forall₂ (Reads analyzeCompound defined) fields found ∧ result = [] ++ found :=
        analyzeParameters_eq_ok_iff _ _ (Analyzer.at_start command.value) (Nat.lt_succ_self _) [] result
      cases hanalyze : analyzeParameters analyzeCompound defined
          (headerSize + (Analyzer.start (message.drop headerSize)).valueAddr)
          (command.value.length + 1) (Analyzer.start command.value) [] with
      | error error =>
        dsimp only
        constructor
        · intro h
          cases h
        · rintro ⟨command', trailing', defined', fields, params, hbytes, hfind, hvalue, hreads, -⟩
          rw [hunique hbytes] at hfind hvalue
          rw [hdefined] at hfind
          cases hfind
          have hok := (hparams params).mpr ⟨fields, params, hvalue, hreads, rfl⟩
          rw [hanalyze] at hok
          cases hok
      | ok params =>
        dsimp only
        obtain ⟨fields, found, hvalue, hreads, hfound⟩ := (hparams params).mp hanalyze
        rw [List.nil_append] at hfound
        subst hfound
        have hcounts := countError_eq_none_iff params defined.entries
        rw [map_tag_of_reads hreads] at hcounts
        cases herror : countError params defined.entries with
        | some error =>
          dsimp only
          constructor
          · intro h
            cases h
          · rintro ⟨command', trailing', defined', fields', params', hbytes, hfind, hvalue',
              hreads', hrange, -⟩
            rw [hunique hbytes] at hfind hvalue'
            rw [hdefined] at hfind
            cases hfind
            have hok := (hparams params').mpr ⟨fields', params', hvalue', hreads', rfl⟩
            rw [hanalyze] at hok
            cases hok
            have hnone := (countError_eq_none_iff params defined.entries).mpr
              (by rw [map_tag_of_reads hreads']; exact hrange)
            rw [herror] at hnone
            cases hnone
        | none =>
          dsimp only
          constructor
          · intro h
            exact ⟨command, trailing, defined, fields, params, eq_of_readField hread, hdefined,
              hvalue, hreads, hcounts.mp herror, (Except.ok.inj h).symm⟩
          · rintro ⟨command', trailing', defined', fields', params', hbytes, hfind, hvalue',
              hreads', -, rfl⟩
            rw [hunique hbytes] at hfind hvalue' ⊢
            rw [hdefined] at hfind
            cases hfind
            have hok := (hparams params').mpr ⟨fields', params', hvalue', hreads', rfl⟩
            rw [hanalyze] at hok
            cases hok
            rfl

end Command

/-! ### The message -/

section Message

variable (protocols : Name → Protocol Name)

/-- The version of the protocol and a known command. -/
theorem analyzeMessage_succ_eq_ok_iff (levels : ℕ) (name : Name) (message : ByteBlock)
    (result : Message) :
    analyzeMessage protocols (levels + 1) name message = .ok result ↔
      ∃ (command : Field) (trailing : ByteBlock) (defined : ParameterMap Name)
        (fields : List Field) (params : List Parameter),
        message = (protocols name).header ++ command.bytes ++ trailing ∧
        (protocols name).commands.find? command.tag = some defined ∧
        command.value = fields.flatMap Field.bytes ∧
        List.Forall₂ (Reads (analyzeMessage protocols levels) defined) fields params ∧
        CountsInRange defined (fields.map Field.tag) ∧
        result = ⟨(protocols name).version.getD 0, command.tag, params⟩ := by
  rw [analyzeMessage, Protocol.header]
  cases hversion : (protocols name).version with
  | none =>
    dsimp only
    rw [analyzeCommand_eq_ok_iff]
    rfl
  | some version =>
    dsimp only
    cases message with
    | nil =>
      rw [if_pos (by decide)]
      constructor
      · intro h
        cases h
      · rintro ⟨command, trailing, -, -, -, hbytes, -⟩
        cases hbytes
    | cons byte rest =>
      rw [if_neg (by rw [List.length_cons]; omega)]
      by_cases hbyte : byteAt (byte :: rest) 0 = version
      · subst hbyte
        rw [if_neg (fun h ↦ h rfl), analyzeCommand_eq_ok_iff]
        have hdrop (command : Field) (trailing : ByteBlock) :
            byte :: rest = (some (byteAt (byte :: rest) 0)).toList ++ command.bytes ++ trailing ↔
              (byte :: rest).drop 1 = command.bytes ++ trailing := by
          constructor
          · intro h
            exact (List.cons.inj h).2
          · intro h
            show byte :: rest = byte :: (command.bytes ++ trailing)
            rw [← h]
            rfl
        simp only [hdrop, Option.getD_some]
      · rw [if_pos hbyte]
        constructor
        · intro h
          cases h
        · rintro ⟨command, trailing, -, -, -, hbytes, -⟩
          exact absurd (List.cons.inj hbytes).1 hbyte

theorem exists_forall₂_reads {analyzeCompound : Name → ByteBlock → Except AnalysisError Message}
    {defined : ParameterMap Name} (fields : List Field)
    (hreads : ∀ field ∈ fields, ∃ parameter, Reads analyzeCompound defined field parameter) :
    ∃ params, List.Forall₂ (Reads analyzeCompound defined) fields params := by
  induction fields with
  | nil => exact ⟨[], .nil⟩
  | cons field fields ih =>
    rw [List.forall_mem_cons] at hreads
    obtain ⟨⟨parameter, hparameter⟩, hothers⟩ := hreads
    obtain ⟨params, hparams⟩ := ih hothers
    exact ⟨parameter :: params, .cons hparameter hparams⟩

theorem exists_reads_of_forall₂ {analyzeCompound : Name → ByteBlock → Except AnalysisError Message}
    {defined : ParameterMap Name} {fields : List Field} {params : List Parameter}
    (hreads : List.Forall₂ (Reads analyzeCompound defined) fields params) :
    ∀ field ∈ fields, ∃ parameter, Reads analyzeCompound defined field parameter := by
  induction hreads with
  | nil => simp
  | cons hhead htail ih =>
    rw [List.forall_mem_cons]
    exact ⟨⟨_, hhead⟩, ih⟩

theorem length_bytes_le_of_mem {fields : List Field} {field : Field} (hfield : field ∈ fields) :
    field.bytes.length ≤ (fields.flatMap Field.bytes).length := by
  obtain ⟨before, after, rfl⟩ := List.append_of_mem hfield
  rw [List.flatMap_append, List.flatMap_cons, List.length_append, List.length_append]
  omega

variable {protocols}

theorem analyzeMessage_ok_iff_accepted (levels : ℕ) (name : Name) (message : ByteBlock)
    (hlevels : message.length < levels) :
    (∃ result, analyzeMessage protocols levels name message = .ok result) ↔
      Accepted protocols name message := by
  induction levels generalizing name message with
  | zero => omega
  | succ levels ih =>
    simp only [analyzeMessage_succ_eq_ok_iff]
    constructor
    · rintro ⟨result, command, trailing, defined, fields, params, rfl, hcommand, hvalue, hreads,
        hcounts, -⟩
      have hfields := exists_reads_of_forall₂ hreads
      apply Accepted.intro name command defined fields trailing hcommand hvalue
      · intro field hfield
        obtain ⟨parameter, desc, hdesc, -⟩ := hfields field hfield
        rw [hdesc, Option.isSome_some]
      · intro field hfield desc hdesc hnone
        obtain ⟨parameter, desc', hdesc', h⟩ := hfields field hfield
        cases hdesc.symm.trans hdesc'
        obtain ⟨-, hmin, hmax, -⟩ | ⟨other, message, hsome, -⟩ := h
        · exact ⟨hmin, hmax⟩
        · rw [hnone] at hsome
          cases hsome
      · intro field hfield desc other hdesc hsome
        obtain ⟨parameter, desc', hdesc', h⟩ := hfields field hfield
        cases hdesc.symm.trans hdesc'
        obtain ⟨hnone, -⟩ | ⟨other', message, hsome', hok, -⟩ := h
        · rw [hsome] at hnone
          cases hnone
        · cases hsome.symm.trans hsome'
          have hlength := length_bytes_le_of_mem hfield
          rw [← hvalue] at hlength
          rw [List.length_append, List.length_append, command.length_bytes] at hlevels
          exact (ih other field.bytes (by omega)).mp ⟨message, hok⟩
      · exact hcounts
    · intro haccepted
      obtain ⟨_, command, defined, fields, trailing, hcommand, hvalue, hknown, hplain, hcompound,
        hcounts⟩ := haccepted
      have hfields (field : Field) (hfield : field ∈ fields) :
          ∃ parameter, Reads (analyzeMessage protocols levels) defined field parameter := by
        obtain ⟨desc, hdesc⟩ := Option.isSome_iff_exists.mp (hknown field hfield)
        cases hkind : desc.compound with
        | none =>
          obtain ⟨hmin, hmax⟩ := hplain field hfield desc hdesc hkind
          exact ⟨.plain field.tag field.value, desc, hdesc, .inl ⟨hkind, hmin, hmax, rfl⟩⟩
        | some other =>
          have hlength := length_bytes_le_of_mem hfield
          rw [← hvalue] at hlength
          rw [List.length_append, List.length_append, command.length_bytes] at hlevels
          obtain ⟨message, hok⟩ := (ih other field.bytes (by omega)).mpr
            (hcompound field hfield desc other hdesc hkind)
          exact ⟨.compound field.tag field.value message.protocolVersion message.commandTag
            message.params, desc, hdesc, .inr ⟨other, message, hkind, hok, rfl⟩⟩
      obtain ⟨params, hparams⟩ := exists_forall₂_reads fields hfields
      exact ⟨_, command, trailing, defined, fields, params, rfl, hcommand, hvalue, hparams, hcounts,
        rfl⟩

end Message

theorem analyze_ok_iff_accepted (protocols : Name → Protocol Name) (name : Name)
    (message : ByteBlock) :
    (∃ result, analyze protocols name message = .ok result) ↔ Accepted protocols name message :=
  analyzeMessage_ok_iff_accepted _ name message (Nat.lt_succ_self _)

/-! ### The errors -/

/-- An error on the number of occurrences of a parameter, with its tag. -/
def AnalysisError.OnCount (protocols : Name → Protocol Name) (error : AnalysisError) : Prop :=
  error.infoIsOffset = false ∧
    (error.status = .missingParameter ∨ error.status = .invalidParameterCount) ∧
    ∃ name commandTag defined, (protocols name).commands.find? commandTag = some defined ∧
      ∃ entry ∈ defined.entries, error.info = entry.1.val

/-- An error on a count or at an offset inside a number of bytes. -/
def AnalysisError.IsInside (protocols : Name → Protocol Name) (size : ℕ) (error : AnalysisError) :
    Prop :=
  error.OnCount protocols ∨ error.infoIsOffset = true ∧ error.info < size

section Errors

variable {protocols : Name → Protocol Name}

theorem isInside_atOffset (status : ErrorStatus) {offset size : ℕ} (hoffset : offset < size) :
    (AnalysisError.atOffset status offset).IsInside protocols size :=
  .inr ⟨rfl, (Nat.mod_le _ _).trans_lt hoffset⟩

theorem isInside_inCompound {error : AnalysisError} {offset inner size : ℕ}
    (herror : error.IsInside protocols inner) (hsize : offset + inner ≤ size) :
    (error.inCompound offset).IsInside protocols size := by
  rw [AnalysisError.inCompound]
  obtain hcount | ⟨hoffset, hinfo⟩ := herror
  · rw [hcount.1, if_neg Bool.false_ne_true]
    exact .inl hcount
  · rw [if_pos hoffset]
    refine .inr ⟨hoffset, ?_⟩
    show (error.info + offset % 65536) % 65536 < size
    have hmod := Nat.mod_le offset 65536
    have hsum := Nat.mod_le (error.info + offset % 65536) 65536
    omega

theorem onCount_of_countError {name : Name} {commandTag : Tag} {defined : ParameterMap Name}
    (hdefined : (protocols name).commands.find? commandTag = some defined) (params : List Parameter)
    {entries : List (Tag × ParameterDef Name)} (hentries : ∀ entry ∈ entries, entry ∈ defined.entries)
    {error : AnalysisError} (herror : countError params entries = some error) :
    error.OnCount protocols := by
  induction entries with
  | nil => cases herror
  | cons entry others ih =>
    rw [List.forall_mem_cons] at hentries
    obtain ⟨tag, desc⟩ := entry
    rw [countError] at herror
    split_ifs at herror with hcount
    · cases herror
      refine ⟨rfl, ?_, name, commandTag, defined, hdefined, (tag, desc), hentries.1, rfl⟩
      dsimp only
      rw [countStatus]
      split_ifs
      · exact .inl rfl
      · exact .inr rfl
    · exact ih hentries.2 herror

section Parameters

variable {analyzeCompound : Name → ByteBlock → Except AnalysisError Message}
  {defined : ParameterMap Name} {limit : ℕ}
  (hcompound : ∀ name bytes error, 4 ≤ bytes.length → bytes.length < limit →
    analyzeCompound name bytes = .error error → error.IsInside protocols bytes.length)

include hcompound

variable {error : AnalysisError}

theorem isInside_of_analyzeParameter {anl : Analyzer} {front tail : ByteBlock} {found : Field}
    (hfield : Analyzer.AtField anl front found tail) {base size : ℕ}
    (hsize : base + (front.length + found.bytes.length) ≤ size) (hlimit : found.bytes.length < limit)
    (herror : analyzeParameter analyzeCompound defined base anl = .error error) :
    error.IsInside protocols size := by
  have hbytes := found.length_bytes
  have haddress : base + anl.tlvAddr < size := by
    rw [hfield.address]
    omega
  unfold analyzeParameter at herror
  split at herror
  · cases herror
    exact isInside_atOffset _ haddress
  · split at herror
    · split at herror
      · next error' hanalyze =>
        cases herror
        rw [hfield.field_eq] at hanalyze
        apply isInside_inCompound (hcompound _ _ _ (by omega) hlimit hanalyze)
        rw [hfield.address]
        omega
      · cases herror
    · split_ifs at herror
      cases herror
      exact isInside_atOffset _ haddress

theorem isInside_of_analyzeParameters {base size : ℕ} (turns : ℕ) {anl : Analyzer}
    {front rest : ByteBlock} (hat : Analyzer.At anl front rest)
    (hsize : base + (front.length + rest.length) ≤ size) (hlimit : rest.length < limit)
    (params : List Parameter)
    (herror : analyzeParameters analyzeCompound defined base turns anl params = .error error) :
    error.IsInside protocols size := by
  induction turns generalizing anl front rest params with
  | zero => cases herror
  | succ turns ih =>
    rw [analyzeParameters] at herror
    cases hread : readField rest with
    | none =>
      have hend := hat.atEnd hread
      rw [hend.eom, if_pos rfl, hend.valid] at herror
      cases rest with
      | nil => cases herror
      | cons byte rest =>
        cases herror
        apply isInside_atOffset
        rw [hend.address]
        rw [List.length_cons] at hsize
        omega
    | some pair =>
      obtain ⟨field, tail⟩ := pair
      have hfield := hat.atField hread
      have hlength := congrArg List.length (eq_of_readField hread)
      rw [List.length_append] at hlength
      rw [hfield.eom, if_neg Bool.false_ne_true] at herror
      split at herror
      · next error' hanalyze =>
        cases herror
        exact isInside_of_analyzeParameter hcompound hfield (by omega) (by omega) hanalyze
      · apply ih hfield.at_next _ (by omega) _ herror
        rw [List.length_append]
        omega

theorem isInside_of_analyzeCommand {name : Name} {version : UInt8} {headerSize : ℕ}
    {message : ByteBlock} (hheader : headerSize ≤ message.length) (hlimit : message.length ≤ limit)
    (herror : analyzeCommand analyzeCompound (protocols name) version headerSize message =
      .error error) :
    error.IsInside protocols message.length ∨
      message.length = headerSize ∧ error = .atOffset .invalidMessage headerSize := by
  have hinside (status : ErrorStatus) (hlt : headerSize < message.length) :
      (AnalysisError.atOffset status headerSize).IsInside protocols message.length :=
    isInside_atOffset status hlt
  rw [analyzeCommand] at herror
  cases hread : readField (message.drop headerSize) with
  | none =>
    have hend := (Analyzer.at_start (message.drop headerSize)).atEnd hread
    rw [hend.eom, Bool.true_or, if_pos rfl] at herror
    cases herror
    by_cases hlength : message.length = headerSize
    · exact .inr ⟨hlength, rfl⟩
    · exact .inl (hinside _ (by omega))
  | some pair =>
    obtain ⟨command, trailing⟩ := pair
    have hcommand := (Analyzer.at_start (message.drop headerSize)).atField hread
    have hlength := congrArg List.length (eq_of_readField hread)
    rw [List.length_drop, List.length_append, command.length_bytes] at hlength
    left
    rw [hcommand.eom, hcommand.valid, if_neg (by decide), hcommand.tag, hcommand.value_eq,
      hcommand.length, hcommand.valueAddr] at herror
    cases hdefined : (protocols name).commands.find? command.tag with
    | none =>
      rw [hdefined] at herror
      cases herror
      exact hinside _ (by omega)
    | some defined =>
      rw [hdefined] at herror
      dsimp only at herror
      split at herror
      · next error' hanalyze =>
        cases herror
        apply isInside_of_analyzeParameters hcompound _ (Analyzer.at_start command.value) _ _ _
          hanalyze
        · rw [List.length_nil]
          omega
        · omega
      · next params hanalyze =>
        split at herror
        · next error' hcount =>
          cases herror
          exact .inl (onCount_of_countError hdefined params (fun entry hentry ↦ hentry) hcount)
        · cases herror

end Parameters

theorem isInside_of_analyzeMessage (levels : ℕ) {name : Name} {message : ByteBlock}
    (hlevels : message.length < levels) {error : AnalysisError}
    (herror : analyzeMessage protocols levels name message = .error error) :
    error.IsInside protocols message.length ∨ message.length ≤ (protocols name).header.length ∧
        error = .atOffset .invalidMessage message.length := by
  induction levels generalizing name message error with
  | zero => omega
  | succ levels ih =>
    have hcompound : ∀ name bytes error, 4 ≤ bytes.length → bytes.length < levels →
        analyzeMessage protocols levels name bytes = .error error →
          error.IsInside protocols bytes.length := by
      intro name bytes error hmin hlength herror
      obtain hinside | ⟨hheader, -⟩ := ih hlength herror
      · exact hinside
      · rw [Protocol.header] at hheader
        have hversion : (protocols name).version.toList.length ≤ 1 := by
          cases (protocols name).version with
          | none => exact Nat.zero_le 1
          | some version => exact le_refl 1
        omega
    have hlimit : message.length ≤ levels := Nat.le_of_lt_succ hlevels
    rw [analyzeMessage] at herror
    rw [Protocol.header]
    cases hversion : (protocols name).version with
    | none =>
      rw [hversion] at herror
      dsimp only at herror
      obtain hinside | ⟨hlength, rfl⟩ :=
        isInside_of_analyzeCommand hcompound (Nat.zero_le _) hlimit herror
      · exact .inl hinside
      · exact .inr ⟨hlength.le, by rw [hlength]⟩
    | some version =>
      rw [hversion] at herror
      dsimp only at herror
      split_ifs at herror with hempty hbyte
      · cases herror
        have hlength : message.length = 0 := by omega
        rw [hlength]
        exact .inr ⟨Nat.zero_le _, rfl⟩
      · cases herror
        exact .inl (isInside_atOffset _ (by omega))
      · obtain hinside | ⟨hlength, rfl⟩ :=
          isInside_of_analyzeCommand hcompound (by omega) hlimit herror
        · exact .inl hinside
        · exact .inr ⟨hlength.le, by rw [hlength]⟩

end Errors

end TSDuck.Tlv

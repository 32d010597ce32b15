import SaasTemplate.Privacy.SubjectExport

/-! # The streamed export

`iter_subject_export_json_chunks` writes the document of the exporter piece by piece, its
commas and brackets by hand, with the data before the manifest. The text that comes out is
a JSON text of the same document.
-/

namespace SaasTemplate
namespace Privacy

open JsonText

/-- `_json_key`. -/
def jsonKey (key : String) : List Char := encodeString key ++ [':']

/-- The variables of the generator, with the chunks yielded so far. -/
structure Streamed where
  chunks : List (List Char) := []
  providerKeys : List String := []
  redactionNotices : List Json := []
  recordCount : Nat := 0

namespace Streamed

/-- `yield` of some chunks. -/
def yields (s : Streamed) (chunks : List (List Char)) : Streamed :=
  { s with chunks := s.chunks ++ chunks }

/-- What has been written. -/
def text (s : Streamed) : List Char := s.chunks.flatten

end Streamed

def comma (first : Bool) : List (List Char) := if first then [] else [[',']]

section
variable (texts : ExportTexts)

/-- The turn of a record. -/
def streamRecord (first : Bool) (s : Streamed) (record : PrivacyExportRecord) : Streamed :=
  let s := s.yields (comma first)
  { s with
    recordCount := s.recordCount + 1
    redactionNotices := noteRedaction s.redactionNotices record }.yields
      (serialiseRecord texts record).iterencode

def streamRecords : Bool → Streamed → List PrivacyExportRecord → Streamed
  | _, s, [] => s
  | first, s, record :: records => streamRecords false (streamRecord texts first s record) records

/-- The turn of a provider; what it wrote stays written when it raises. -/
def streamProvider (providerIndex : Nat) (yielded : Yielded) (key : String) (s : Streamed) :
    Streamed × Option SubjectDataExportError :=
  let s := s.yields (comma (providerIndex = 0))
  let s := { s with providerKeys := s.providerKeys ++ [key] }.yields [jsonKey key, ['[']]
  let s := streamRecords texts true s yielded.records
  match yielded.exception with
  | some exception => (s, some exception.raised)
  | none => (s.yields [[']']], none)

variable {Db : Type} (iter : IterExportRecords Db) (db : Db)

def streamProviders (context : PrivacyProviderContext) :
    Nat → List ExportProviderType → Streamed → Streamed × Option SubjectDataExportError
  | _, [], s => (s, none)
  | providerIndex, provider :: providers, s =>
      match streamProvider texts providerIndex (iter provider db context) provider.providerKey s with
      | (s, some error) => (s, some error)
      | (s, none) => streamProviders context (providerIndex + 1) providers s

/-- The members of the header, with a comma before all but the first. -/
def streamFields : Bool → List (String × Json) → List (List Char)
  | _, [] => []
  | first, (key, value) :: fields =>
      comma first ++ [jsonKey key] ++ value.iterencode ++ streamFields false fields

/-- What is written before the providers' records. -/
def streamOpening (context : ExportContext) (subject : Uuid) : Streamed :=
  Streamed.yields {} ([['{']] ++ streamFields true (headerFields texts context subject) ++
    [[','], jsonKey "data", ['{']])

/-- The generator: its chunks, and the error it ends with, if any. -/
def iterSubjectExportJsonChunks (context : ExportContext) :
    List (List Char) × Option SubjectDataExportError :=
  match context.subjectUserId with
  | none => ([], some ⟨"subject_user_missing"⟩)
  | some subject =>
      match streamProviders texts iter db (context.forProviders subject) 0 exportProviderTypes
          (streamOpening texts context subject) with
      | (s, some error) => (s.chunks, some error)
      | (s, none) => ((s.yields ([['}'], [','], jsonKey "manifest"] ++
          (manifest s.providerKeys s.recordCount s.redactionNotices).iterencode ++ [['}']])).chunks,
          none)

end

/-! ## Commas -/

/-- The comma before a text that is added to others. -/
theorem commas_concat (parts : List (List Char)) (part : List Char) :
    commas (parts ++ [part]) =
      commas parts ++ (comma parts.isEmpty).flatten ++ part := by
  cases parts with
  | nil => simp [commas, comma]
  | cons p ps => simp [commas_cons, comma]

theorem jsonKey_append (key : String) (value : List Char) : jsonKey key ++ value = member key value := by
  simp [jsonKey, member]

theorem encodeMembers_concat (members : List (String × Json)) (key : String) (value : Json) :
    commas (Json.encodeMembers (members ++ [(key, value)])) =
      commas (Json.encodeMembers members) ++ (comma members.isEmpty).flatten ++
        member key value.encode := by
  rw [Json.encodeMembers_eq, List.map_append, List.map_singleton, commas_concat,
    Json.encodeMembers_eq, List.isEmpty_map]

theorem encodeItems_concat (items : List Json) (item : Json) :
    commas (Json.encodeItems (items ++ [item])) =
      commas (Json.encodeItems items) ++ (comma items.isEmpty).flatten ++ item.encode := by
  rw [Json.encodeItems_eq, List.map_append, List.map_singleton, commas_concat, Json.encodeItems_eq,
    List.isEmpty_map]

/-- The header is written as the members of an object are. -/
theorem flatten_streamFields (fields : List (String × Json)) (done : List (String × Json)) :
    commas (Json.encodeMembers done) ++ (streamFields done.isEmpty fields).flatten =
      commas (Json.encodeMembers (done ++ fields)) := by
  induction fields generalizing done with
  | nil => simp [streamFields]
  | cons field fields ih =>
      obtain ⟨key, value⟩ := field
      have rest := ih (done ++ [(key, value)])
      have nonempty : (done ++ [(key, value)]).isEmpty = false := by simp
      rw [nonempty, encodeMembers_concat, List.append_assoc done, List.singleton_append] at rest
      rw [streamFields, ← rest, ← jsonKey_append]
      simp [Json.flatten_iterencode]

/-! ## In step -/

section
variable (texts : ExportTexts) {Db : Type} (iter : IterExportRecords Db) (db : Db)
variable {s : Streamed} {collected : Collected}

/-- What the generator and the exporter count and note alike. -/
structure SameCounts (s : Streamed) (collected : Collected) : Prop where
  notices : s.redactionNotices = collected.redactionNotices
  count : s.recordCount = collected.recordCount

theorem streamRecords_spec (records : List PrivacyExportRecord) (done : List Json)
    (same : SameCounts s collected) {before : List Char}
    (written : s.text = before ++ commas (Json.encodeItems done)) :
    let out := records.foldl (collectRecord texts) (done, collected)
    let s' := streamRecords texts done.isEmpty s records
    SameCounts s' out.2 ∧ s'.text = before ++ commas (Json.encodeItems out.1) ∧
      s'.providerKeys = s.providerKeys ∧ out.2.data = collected.data := by
  induction records generalizing s collected done with
  | nil => exact ⟨same, written, rfl, rfl⟩
  | cons record records ih =>
      have counts : SameCounts (streamRecord texts done.isEmpty s record)
          (collectRecord texts (done, collected) record).2 := by
        constructor
        · simp [streamRecord, Streamed.yields, collectRecord, same.notices]
        · simp [streamRecord, Streamed.yields, collectRecord, same.count]
      have text : (streamRecord texts done.isEmpty s record).text =
          before ++ commas (Json.encodeItems (done ++ [serialiseRecord texts record])) := by
        rw [encodeItems_concat]
        simp only [Streamed.text] at written
        simp [streamRecord, Streamed.text, Streamed.yields, written, Json.flatten_iterencode]
      have rest := ih (done ++ [serialiseRecord texts record]) counts text
      have nonempty : (done ++ [serialiseRecord texts record]).isEmpty = false := by simp
      rw [nonempty] at rest
      exact rest

/-- After some providers: the keys are those of the data, and the data is written. -/
structure InStep (before : List Char) (providerIndex : Nat) (s : Streamed) (collected : Collected) :
    Prop extends SameCounts s collected where
  index : providerIndex = collected.data.length
  keys : s.providerKeys = collected.data.map Prod.fst
  written : s.text = before ++ commas (Json.encodeMembers collected.data)

theorem streamProvider_spec {before : List Char} {providerIndex : Nat} {key : String}
    (inStep : InStep before providerIndex s collected)
    (new : key ∉ collected.data.map Prod.fst) (yielded : Yielded) :
    match collectProvider texts yielded key collected with
    | .error error => (streamProvider texts providerIndex yielded key s).2 = some error
    | .ok collected' =>
        (streamProvider texts providerIndex yielded key s).2 = none ∧
          InStep before (providerIndex + 1) (streamProvider texts providerIndex yielded key s).1
            collected' ∧
          collected'.data.map Prod.fst = collected.data.map Prod.fst ++ [key] := by
  let opened := { s.yields (comma (providerIndex = 0)) with
    providerKeys := s.providerKeys ++ [key] }.yields [jsonKey key, ['[']]
  have counts : SameCounts opened collected := ⟨inStep.notices, inStep.count⟩
  have empty : decide (providerIndex = 0) = collected.data.isEmpty := by
    rw [inStep.index]
    cases collected.data <;> simp
  have text : opened.text = (before ++ commas (Json.encodeMembers collected.data) ++
      (comma collected.data.isEmpty).flatten ++ jsonKey key ++ ['[']) ++
        commas (Json.encodeItems []) := by
    have written := inStep.written
    simp only [Streamed.text] at written
    simp [opened, Streamed.text, Streamed.yields, written, empty, commas, Json.encodeItems]
  obtain ⟨counts', text', keys', data'⟩ :=
    streamRecords_spec texts yielded.records [] counts text
  simp only [collectProvider, streamProvider]
  cases ends : yielded.exception with
  | some exception => simp
  | none =>
      have same : (setMember (yielded.records.foldl (collectRecord texts) ([], collected)).2.data key
          (.arr (yielded.records.foldl (collectRecord texts) ([], collected)).1)) =
          collected.data ++
            [(key, .arr (yielded.records.foldl (collectRecord texts) ([], collected)).1)] := by
        rw [data']
        exact setMember_new new _
      refine ⟨rfl, ⟨⟨counts'.notices, counts'.count⟩, ?_, ?_, ?_⟩, ?_⟩
      · simp [same, inStep.index]
      · simp only [same, Streamed.yields, List.map_append, List.map_singleton, ← inStep.keys]
        exact keys'
      · rw [same, encodeMembers_concat, ← jsonKey_append]
        have yields : (streamRecords texts true opened yielded.records).text ++ [']'] = _ :=
          congrArg (· ++ [']']) text'
        simp only [Streamed.text] at yields
        simp only [Streamed.text, Streamed.yields, List.flatten_append, List.flatten_cons,
          List.flatten_nil, List.append_nil]
        refine yields.trans ?_
        rw [Json.encode]
        simp
      · simp [same]

/-- The run lemma: the generator and the exporter end alike, and in step if they end well. -/
theorem streamProviders_spec (context : PrivacyProviderContext) {before : List Char}
    (providers : List ExportProviderType) {providerIndex : Nat}
    (inStep : InStep before providerIndex s collected)
    (distinct : (collected.data.map Prod.fst ++
      providers.map ExportProviderType.providerKey).Nodup) :
    let streamed := streamProviders texts iter db context providerIndex providers s
    match collectProviders texts iter db context providers collected with
    | .error error => streamed.2 = some error
    | .ok collected' => streamed.2 = none ∧
        InStep before (providerIndex + providers.length) streamed.1 collected' := by
  induction providers generalizing providerIndex s collected with
  | nil => exact ⟨rfl, inStep⟩
  | cons provider providers ih =>
      have new : provider.providerKey ∉ collected.data.map Prod.fst := by
        intro member
        rw [List.map_cons] at distinct
        exact (List.nodup_append.mp distinct).2.2 _ member _ List.mem_cons_self rfl
      have turn := streamProvider_spec texts inStep new (iter provider db context)
      simp only [collectProviders, streamProviders]
      cases collects : collectProvider texts (iter provider db context) provider.providerKey
          collected with
      | error error =>
          rw [collects] at turn
          cases streams : streamProvider texts providerIndex (iter provider db context)
              provider.providerKey s with
          | mk s' ends =>
              rw [streams] at turn
              cases turn
              rfl
      | ok collected' =>
          rw [collects] at turn
          cases streams : streamProvider texts providerIndex (iter provider db context)
              provider.providerKey s with
          | mk s' ends =>
              rw [streams] at turn
              obtain ⟨is, inStep', keys⟩ := turn
              cases is
              have rest := ih inStep' (by
                rw [keys, List.append_assoc, List.singleton_append]
                simpa using distinct)
              rw [List.length_cons, Nat.add_comm providers.length, ← Nat.add_assoc]
              exact rest

end

section
variable (texts : ExportTexts) {Db : Type} (iter : IterExportRecords Db) (db : Db)

/-- The document in the order in which it is written. -/
def streamedDocument (context : ExportContext) (subject : Uuid) (collected : Collected) : Json :=
  .obj (headerFields texts context subject ++
    [("data", .obj collected.data),
      ("manifest", manifest (collected.data.map Prod.fst) collected.recordCount
        collected.redactionNotices)])

theorem streamOpening_inStep (context : ExportContext) (subject : Uuid) :
    InStep ('{' :: commas (Json.encodeMembers (headerFields texts context subject)) ++
      ',' :: jsonKey "data" ++ ['{']) 0 (streamOpening texts context subject) {} := by
  refine ⟨⟨rfl, rfl⟩, rfl, rfl, ?_⟩
  have header := flatten_streamFields (headerFields texts context subject) []
  simp only [List.isEmpty_nil, List.nil_append] at header
  rw [← header]
  simp [streamOpening, Streamed.text, Streamed.yields, commas, Json.encodeMembers]

/-- What is written when no provider raises: the encoding of the document. -/
theorem text_of_inStep {context : ExportContext} {subject : Uuid} {collected : Collected} {n : Nat}
    {s : Streamed} (inStep : InStep ('{' :: commas (Json.encodeMembers
      (headerFields texts context subject)) ++ ',' :: jsonKey "data" ++ ['{']) n s collected) :
    (s.yields ([['}'], [','], jsonKey "manifest"] ++
      (manifest s.providerKeys s.recordCount s.redactionNotices).iterencode ++ [['}']])).text =
      (streamedDocument texts context subject collected).encode := by
  have written := inStep.written
  simp only [Streamed.text] at written
  have last : headerFields texts context subject ++ [("data", .obj collected.data),
      ("manifest", manifest (collected.data.map Prod.fst) collected.recordCount
        collected.redactionNotices)] =
      headerFields texts context subject ++ [("data", .obj collected.data)] ++
        [("manifest", manifest (collected.data.map Prod.fst) collected.recordCount
          collected.redactionNotices)] := by
    simp
  rw [streamedDocument, Json.encode, last, encodeMembers_concat, encodeMembers_concat]
  have some_ : (headerFields texts context subject).isEmpty = false := rfl
  have data : (Json.obj collected.data).encode =
      '{' :: commas (Json.encodeMembers collected.data) ++ ['}'] := by rw [Json.encode]
  simp [data, Streamed.text, Streamed.yields, written, Json.flatten_iterencode, inStep.keys,
    inStep.toSameCounts.count, inStep.toSameCounts.notices, comma, some_, ← jsonKey_append]

/-- The chunks are, put together, a JSON text with the value of the document that the
exporter builds and that is encoded in one piece; where the exporter raises, the generator
ends with the same error. -/
theorem streamed_export_is_built_export (context : ExportContext) :
    let streamed := iterSubjectExportJsonChunks texts iter db context
    match exportSubjectData texts iter db context with
    | .error error => streamed.2 = some error
    | .ok document => streamed.2 = none ∧ ∃ parsed, JsonText.read streamed.1.flatten = some parsed ∧
        JsonText.read document.encode = some document ∧ parsed.SameMembers document := by
  intro streamed
  cases isSubject : context.subjectUserId with
  | none =>
      simp [streamed, exportSubjectData, iterSubjectExportJsonChunks, isSubject]
  | some subject =>
      have run := streamProviders_spec texts iter db (context.forProviders subject)
        exportProviderTypes (streamOpening_inStep texts context subject)
        (by simpa using exportProviderTypes_keys)
      simp only [exportSubjectData, streamed, iterSubjectExportJsonChunks, isSubject]
      cases collects : collectProviders texts iter db (context.forProviders subject)
          exportProviderTypes {} with
      | error error =>
          simp only [collects] at run
          cases streams : streamProviders texts iter db (context.forProviders subject) 0
              exportProviderTypes (streamOpening texts context subject) with
          | mk s ends =>
              rw [streams] at run
              cases run
              rfl
      | ok collected =>
          simp only [collects] at run
          cases streams : streamProviders texts iter db (context.forProviders subject) 0
              exportProviderTypes (streamOpening texts context subject) with
          | mk s ends =>
          rw [streams] at run
          obtain ⟨is, inStep⟩ := run
          cases is
          have text := text_of_inStep texts inStep
          refine ⟨rfl, streamedDocument texts context subject collected, ?_, read_encode _, ?_⟩
          · exact (congrArg JsonText.read text).trans (read_encode _)
          · refine ⟨List.Perm.append_left _ (List.Perm.swap _ _ _), ?_⟩
            show ["schema_version", "generated_at", "data_subject_request_id", "subject_user_id",
              "requester_user_id", "request_type", "request_status", "artifact_id", "data",
              "manifest"].Nodup
            decide

end

end Privacy
end SaasTemplate

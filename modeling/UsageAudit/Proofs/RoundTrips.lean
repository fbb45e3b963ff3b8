import UsageAudit.Analysis
import UsageAudit.Symbol

/-!
# Round trips through JSON

The structural model of a script and the answers of a knowledge graph are written as JSON and read
again. What is written is read as what it was, if its counts fit into machine words; a reader gives no
counts that do not. So what is read from any JSON value is read again from what is written for it, in
whatever form the value was: as objects or as arrays of fields, with optional fields left out or null.
-/

namespace UsageAudit

/-! ## Values and their fields -/

namespace Datum

/-- A count is read again if it fits into a machine word. -/
@[simp]
theorem nat?_count_iff (n : Nat) : (count n : Json).nat? = some n ↔ n < natBound := by
  show (if n < natBound then some n else none) = some n ↔ n < natBound
  simp

/-- Every count that is read fits into a machine word. -/
theorem lt_natBound_of_nat? {value : Json} {n : Nat} (h : value.nat? = some n) : n < natBound := by
  unfold nat? at h
  split at h
  · split at h
    · cases h
      assumption
    · cases h
  · cases h

/-- A list is read again if its items are. -/
@[simp]
theorem list?_ofList_iff {α : Type} (encode : α → Json) (item : Json → Option α) (items : List α) :
    list? item (ofList encode items) = some items ↔
      ∀ member ∈ items, item (encode member) = some member := by
  show (items.map encode).mapM item = some items ↔ _
  induction items with
  | nil => simp
  | cons member rest ih =>
    simp only [List.map_cons, List.mapM_cons, Option.bind_eq_bind, Option.pure_def,
      Option.bind_eq_some_iff, Option.some.injEq, List.cons.injEq, List.forall_mem_cons, ← ih]
    constructor
    · rintro ⟨member', hmember, rest', hrest, rfl, rfl⟩
      exact ⟨hmember, hrest⟩
    · rintro ⟨hmember, hrest⟩
      exact ⟨member, hmember, rest, hrest, rfl, rfl⟩

/-- A list of texts is read again. -/
@[simp]
theorem list?_ofList_str (texts : List String) :
    list? str? (ofList .str texts) = some texts := by
  rw [list?_ofList_iff]
  exact fun text _ => rfl

/-- The items of a list that is read have been read one by one. -/
theorem exists_of_mem_list? {α : Type} {item : Json → Option α} {value : Json} {items : List α}
    (h : list? item value = some items) {member : α} (hmember : member ∈ items) :
    ∃ part, item part = some member := by
  cases value with
  | arr parts =>
    have hparts : parts.mapM item = some items := h
    clear h
    induction parts generalizing items with
    | nil =>
      simp only [List.mapM_nil, Option.pure_def, Option.some.injEq] at hparts
      subst hparts
      cases hmember
    | cons part rest ih =>
      simp only [List.mapM_cons, Option.bind_eq_bind, Option.pure_def, Option.bind_eq_some_iff,
        Option.some.injEq] at hparts
      obtain ⟨first, hfirst, others, hothers, rfl⟩ := hparts
      rcases List.mem_cons.mp hmember with rfl | hmember
      · exact ⟨part, hfirst⟩
      · exact ih hmember hothers
  | _ => cases h

/-- A text that may be missing is read again. -/
@[simp]
theorem option?_ofOption_str (text : Option String) :
    option? str? (ofOption .str text) = some text := by
  cases text <;> rfl

/-- A member that is null says no more than one that is missing. -/
theorem memberOrNull_append_null (members : List (String × Json)) (other name : String) :
    memberOrNull (members ++ [(other, .null)]) name = memberOrNull members name := by
  simp only [memberOrNull, member?, List.find?_append]
  cases List.find? (fun member => member.1 == name) members with
  | some member => rfl
  | none => by_cases h : other = name <;> simp [h]

/-- A record has the same fields with a further member that is null. -/
theorem fields?_append_null (names : List String) (members : List (String × Json))
    (other : String) :
    fields? names (.obj (members ++ [(other, .null)])) = fields? names (.obj members) := by
  simp [fields?, memberOrNull_append_null]

/-- A member of another name is passed over. -/
theorem memberOrNull_cons_of_ne {name other : String} (h : other ≠ name) (value : Json)
    (members : List (String × Json)) :
    memberOrNull ((other, value) :: members) name = memberOrNull members name := by
  simp [memberOrNull, member?, h]

/-- Values that were put under different names are found there. -/
theorem map_memberOrNull_zip {names : List String} {values : List Json} (hnames : names.Nodup)
    (hlength : names.length = values.length) :
    names.map (memberOrNull (names.zip values)) = values := by
  induction names generalizing values with
  | nil => simpa using (List.length_eq_zero_iff.mp hlength.symm).symm
  | cons name rest ih =>
    cases values with
    | nil => cases hlength
    | cons value values =>
      obtain ⟨hname, hrest⟩ := List.nodup_cons.mp hnames
      have hothers : rest.map (memberOrNull ((name, value) :: rest.zip values)) =
          rest.map (memberOrNull (rest.zip values)) := by
        refine List.map_congr_left fun other hother => ?_
        have hne : name ≠ other := by
          rintro rfl
          exact hname hother
        exact memberOrNull_cons_of_ne hne value _
      have hfirst : memberOrNull ((name, value) :: rest.zip values) name = value := by
        simp [memberOrNull, member?]
      rw [List.zip_cons_cons, List.map_cons, hfirst, hothers, ih hrest (by simpa using hlength)]

end Datum

/-- Whether the writer and the reader of a kind of values agree. Of the values only those that fit can
be read again. -/
structure RoundTrips {α : Type} (write : α → Json) (read : Json → Option α) (fits : α → Prop) :
    Prop where
  /-- What is written is read as what it was. -/
  back_iff : ∀ value, read (write value) = some value ↔ fits value
  /-- What has been read, from whatever JSON value, is read again from what is written for it. -/
  again : ∀ json value, read json = some value → read (write value) = some value
  /-- A field that is missing is read like one that is null. -/
  missing : ∀ members name, read (.obj (members ++ [(name, .null)])) = read (.obj members)

namespace RoundTrips

variable {α : Type} {write : α → Json} {read : Json → Option α} {fits : α → Prop}

/-- It is enough that what fits is read again and that nothing else is read. -/
theorem of_back (hback : ∀ value, fits value → read (write value) = some value)
    (hfits : ∀ json value, read json = some value → fits value)
    (hmissing : ∀ members name, read (.obj (members ++ [(name, .null)])) = read (.obj members)) :
    RoundTrips write read fits where
  back_iff value := ⟨hfits (write value) value, hback value⟩
  again json value hread := hback value (hfits json value hread)
  missing := hmissing

/-- What fits is read again. -/
theorem back (h : RoundTrips write read fits) {value : α} (hvalue : fits value) :
    read (write value) = some value :=
  (h.back_iff value).mpr hvalue

/-- What is read fits. -/
theorem fits_of_read (h : RoundTrips write read fits) {json : Json} {value : α}
    (hread : read json = some value) : fits value :=
  (h.back_iff value).mp (h.again json value hread)

end RoundTrips

/-! ## Symbols and signatures -/

/-- The fields of a sighting are found under their names. -/
theorem Sighting.fields?_toJson (sighting : Sighting) :
    sighting.toJson.fields? ["exists", "locations"] =
      some [.bool sighting.known, Datum.ofList .str sighting.locations] := by
  simp [toJson, Datum.fields?, Datum.memberOrNull, Datum.member?, Datum.texts, Datum.ofList]

/-- Sightings and their JSON agree. -/
theorem Sighting.roundTrips : RoundTrips toJson ofJson? fun _ => True := by
  refine .of_back ?_ (fun _ _ _ => trivial) ?_
  · intro sighting _
    simp [ofJson?, fields?_toJson, Datum.bool?]
  · intro members name
    simp only [ofJson?, Datum.fields?_append_null]

/-- The fields of a parameter are found under their names, and its type is null if it has none. -/
theorem Param.fields?_toJson (param : Param) :
    param.toJson.fields? ["name", "type", "has_default", "kind"] =
      some [.str param.name, Datum.ofOption .str param.declared, .bool param.hasDefault,
        .str param.kind.name] := by
  obtain ⟨name, declared, hasDefault, kind⟩ := param
  cases declared <;>
    simp [toJson, Datum.fields?, Datum.memberOrNull, Datum.member?, Datum.optionalMember,
      Datum.ofOption]

/-- Parameters and their JSON agree. -/
theorem Param.roundTrips : RoundTrips toJson ofJson? fun _ => True := by
  refine .of_back ?_ (fun _ _ _ => trivial) ?_
  · intro param _
    have hkind : ParamKind.ofJson? (.str param.kind.name) = some param.kind :=
      ParamKind.ofName?_name param.kind
    simp [ofJson?, fields?_toJson, Datum.bool?, Datum.str?, hkind]
  · intro members name
    simp only [ofJson?, Datum.fields?_append_null]

/-- The fields of a signature are found under their names, and its return type is null if it has
none. -/
theorem Signature.fields?_toJson (signature : Signature) :
    signature.toJson.fields? ["params", "return_type"] =
      some [Datum.ofList Param.toJson signature.params,
        Datum.ofOption .str signature.returns] := by
  obtain ⟨params, returns⟩ := signature
  cases returns <;>
    simp [toJson, Datum.fields?, Datum.memberOrNull, Datum.member?, Datum.optionalMember,
      Datum.ofOption]

/-- Signatures and their JSON agree. -/
theorem Signature.roundTrips : RoundTrips toJson ofJson? fun _ => True := by
  refine .of_back ?_ (fun _ _ _ => trivial) ?_
  · intro signature _
    have hparams : Datum.list? Param.ofJson? (Datum.ofList Param.toJson signature.params) =
        some signature.params :=
      (Datum.list?_ofList_iff ..).mpr fun _ _ => Param.roundTrips.back trivial
    simp [ofJson?, fields?_toJson, hparams]
  · intro members name
    simp only [ofJson?, Datum.fields?_append_null]

/-! ## Elements -/

/-- The kind of an argument is read again. -/
@[simp]
theorem ArgKind.ofJson?_toJson (kind : ArgKind) : ofJson? kind.toJson = some kind :=
  ofName?_name kind

/-- The kind of an element is read again. -/
@[simp]
theorem ElementKind.ofJson?_toJson (kind : ElementKind) : ofJson? kind.toJson = some kind :=
  ofName?_name kind

/-- Arguments by keyword and their JSON agree. -/
theorem KeywordArg.roundTrips : RoundTrips toJson ofJson? fun _ => True := by
  refine .of_back ?_ (fun _ _ _ => trivial) ?_
  · intro argument _
    simp [ofJson?, toJson, Datum.fields?, Datum.memberOrNull, Datum.member?, Datum.str?]
  · intro members name
    simp only [ofJson?, Datum.fields?_append_null]

/-- The fields of the shape of a call are found under their names. -/
theorem CallArguments.fields?_toJson (arguments : CallArguments) :
    arguments.toJson.fields? ["positional", "keywords", "has_unpacking"] =
      some [Datum.ofList ArgKind.toJson arguments.positional,
        Datum.ofList KeywordArg.toJson arguments.keywords, .bool arguments.hasUnpacking] := by
  simp [toJson, Datum.fields?, Datum.memberOrNull, Datum.member?]

/-- Shapes of calls and their JSON agree. -/
theorem CallArguments.roundTrips : RoundTrips toJson ofJson? fun _ => True := by
  refine .of_back ?_ (fun _ _ _ => trivial) ?_
  · intro arguments _
    have hpositional : Datum.list? ArgKind.ofJson?
        (Datum.ofList ArgKind.toJson arguments.positional) = some arguments.positional :=
      (Datum.list?_ofList_iff ..).mpr fun kind _ => kind.ofJson?_toJson
    have hkeywords : Datum.list? KeywordArg.ofJson?
        (Datum.ofList KeywordArg.toJson arguments.keywords) = some arguments.keywords :=
      (Datum.list?_ofList_iff ..).mpr fun _ _ => KeywordArg.roundTrips.back trivial
    simp [ofJson?, fields?_toJson, hpositional, hkeywords, Datum.bool?]
  · intro members name
    simp only [ofJson?, Datum.fields?_append_null]

namespace Element

/-- The counts of an element: its line, and how many arguments a call has. -/
def numbers : Element → List Nat
  | .ofImport e => [e.line]
  | .classDef e => [e.line]
  | .functionDef e => [e.line]
  | .methodCall e => [e.argCount, e.keywordCount, e.line]
  | .functionCall e => [e.argCount, e.keywordCount, e.line]
  | .attributeAccess e => [e.line]
  | .variableAssign e => [e.line]

/-- Whether the counts of an element fit into machine words. -/
def Fits (element : Element) : Prop := ∀ n ∈ element.numbers, n < Datum.natBound

/-- The values of the fields of an element are read again as those of its kind. -/
theorem ofFields?_fieldValues {element : Element} (h : element.Fits) :
    ofFields? element.kind element.fieldValues = some element := by
  have harguments (arguments : CallArguments) :
      CallArguments.ofJson? arguments.toJson = some arguments :=
    CallArguments.roundTrips.back trivial
  have hcount {n : Nat} (hmem : n ∈ element.numbers) : (Datum.count n : Json).nat? = some n :=
    (Datum.nat?_count_iff n).mpr (h n hmem)
  cases element with
  | ofImport e =>
    have hline := hcount (n := e.line) (by simp [numbers])
    simp [ofFields?, kind, fieldValues, Datum.str?, hline]
  | classDef e =>
    have hline := hcount (n := e.line) (by simp [numbers])
    simp [ofFields?, kind, fieldValues, Datum.str?, hline]
  | functionDef e =>
    have hline := hcount (n := e.line) (by simp [numbers])
    simp [ofFields?, kind, fieldValues, Datum.str?, Datum.bool?, hline]
  | methodCall e =>
    have hargs := hcount (n := e.argCount) (by simp [numbers])
    have hkeywords := hcount (n := e.keywordCount) (by simp [numbers])
    have hline := hcount (n := e.line) (by simp [numbers])
    simp [ofFields?, kind, fieldValues, Datum.str?, harguments, hargs, hkeywords, hline]
  | functionCall e =>
    have hargs := hcount (n := e.argCount) (by simp [numbers])
    have hkeywords := hcount (n := e.keywordCount) (by simp [numbers])
    have hline := hcount (n := e.line) (by simp [numbers])
    simp [ofFields?, kind, fieldValues, Datum.str?, harguments, hargs, hkeywords, hline]
  | attributeAccess e =>
    have hline := hcount (n := e.line) (by simp [numbers])
    simp [ofFields?, kind, fieldValues, Datum.str?, hline]
  | variableAssign e =>
    have hline := hcount (n := e.line) (by simp [numbers])
    simp [ofFields?, kind, fieldValues, Datum.str?, hline]

/-- What is read from fields is of the given kind, and has counts that fit into machine words. -/
theorem kind_and_fits_of_ofFields? {kind : ElementKind} {values : List Json} {element : Element}
    (h : ofFields? kind values = some element) : element.kind = kind ∧ element.Fits := by
  unfold ofFields? at h
  split at h
  case h_8 => cases h
  all_goals
    simp only [Option.bind_eq_bind, Option.pure_def, Option.bind_eq_some_iff, Option.some.injEq] at h
  case h_1 =>
    obtain ⟨path, -, name, -, nickname, -, line, hline, rfl⟩ := h
    exact ⟨rfl, by simpa [Fits, numbers] using Datum.lt_natBound_of_nat? hline⟩
  case h_2 =>
    obtain ⟨name, -, bases, -, methods, -, line, hline, rfl⟩ := h
    exact ⟨rfl, by simpa [Fits, numbers] using Datum.lt_natBound_of_nat? hline⟩
  case h_3 =>
    obtain ⟨name, -, args, -, className, -, isAsync, -, line, hline, rfl⟩ := h
    exact ⟨rfl, by simpa [Fits, numbers] using Datum.lt_natBound_of_nat? hline⟩
  case h_4 =>
    obtain ⟨object, -, method, -, argCount, hargs, keywordCount, hkeywords, arguments, -, line,
      hline, rfl⟩ := h
    refine ⟨rfl, ?_⟩
    simpa [Fits, numbers] using ⟨Datum.lt_natBound_of_nat? hargs,
      Datum.lt_natBound_of_nat? hkeywords, Datum.lt_natBound_of_nat? hline⟩
  case h_5 =>
    obtain ⟨name, -, argCount, hargs, keywordCount, hkeywords, arguments, -, line, hline, rfl⟩ := h
    refine ⟨rfl, ?_⟩
    simpa [Fits, numbers] using ⟨Datum.lt_natBound_of_nat? hargs,
      Datum.lt_natBound_of_nat? hkeywords, Datum.lt_natBound_of_nat? hline⟩
  case h_6 =>
    obtain ⟨object, -, member, -, line, hline, rfl⟩ := h
    exact ⟨rfl, by simpa [Fits, numbers] using Datum.lt_natBound_of_nat? hline⟩
  case h_7 =>
    obtain ⟨name, -, assignedFrom, -, line, hline, rfl⟩ := h
    exact ⟨rfl, by simpa [Fits, numbers] using Datum.lt_natBound_of_nat? hline⟩

/-- No two fields of an element have the same name, and none has that of the tag. -/
theorem nodup_tag_fieldNames (kind : ElementKind) : ("element" :: fieldNames kind).Nodup := by
  cases kind <;> simp [fieldNames]

/-- An element has a value for each of its fields. -/
theorem length_fieldNames (element : Element) :
    (fieldNames element.kind).length = element.fieldValues.length := by
  cases element <;> rfl

/-- The tag of a value: the text of its member `element`, or of its first item. -/
def tag? : Json → Option String
  | .obj members => (Datum.memberOrNull members "element").str?
  | .arr (first :: _) => first.str?
  | _ => none

/-- The fields of an element are found beside its tag. -/
theorem fields?_toJson (element : Element) :
    element.toJson.fields? (fieldNames element.kind) = some element.fieldValues := by
  obtain ⟨htag, hnodup⟩ := List.nodup_cons.mp (nodup_tag_fieldNames element.kind)
  have hothers : (fieldNames element.kind).map (Datum.memberOrNull
        (("element", element.kind.toJson) :: (fieldNames element.kind).zip element.fieldValues)) =
      (fieldNames element.kind).map (Datum.memberOrNull
        ((fieldNames element.kind).zip element.fieldValues)) := by
    refine List.map_congr_left fun name hname => ?_
    have hne : "element" ≠ name := by
      rintro rfl
      exact htag hname
    exact Datum.memberOrNull_cons_of_ne hne _ _
  simp [toJson, Datum.fields?, hothers, Datum.map_memberOrNull_zip hnodup element.length_fieldNames]

/-- The tag of an element is the name of its kind. -/
theorem tag?_toJson (element : Element) : tag? element.toJson = some element.kind.name := by
  simp [tag?, toJson, Datum.memberOrNull, Datum.member?, ElementKind.toJson, Datum.str?]

/-- The part of a value in which the fields of an element are: all of an object, or what follows the
tag in an array. -/
def fieldPart : Json → Json
  | .arr (_ :: rest) => .arr rest
  | json => json

/-- An element is read by its tag: the tag alone says of which kind it is, and so which fields are
read. -/
theorem ofJson?_eq_bind (json : Json) :
    ofJson? json = ((tag? json).bind ElementKind.ofName?).bind fun kind =>
      ((fieldPart json).fields? (fieldNames kind)).bind (ofFields? kind) := by
  unfold ofJson? tag? fieldPart
  split
  · rw [Option.bind_assoc]
    rfl
  · rw [Option.bind_assoc]
    rfl
  · rename_i hobj harr
    cases json with
    | obj members => exact absurd rfl (hobj members)
    | arr items =>
      cases items with
      | nil => rfl
      | cons first rest => exact absurd rfl (harr first rest)
    | _ => rfl

/-- What is read as an element has the name of its kind for a tag, and counts that fit into machine
words. -/
theorem tagged_and_fits_of_ofJson? {json : Json} {element : Element}
    (h : ofJson? json = some element) : tag? json = some element.kind.name ∧ element.Fits := by
  simp only [ofJson?_eq_bind, Option.bind_eq_some_iff] at h
  obtain ⟨kind, ⟨text, htag, hkind⟩, values, -, hread⟩ := h
  obtain ⟨rfl, hfits⟩ := kind_and_fits_of_ofFields? hread
  have hname : element.kind.name = text := by simpa using List.find?_some hkind
  exact ⟨hname ▸ htag, hfits⟩

/-- Elements and their JSON agree. -/
theorem roundTrips : RoundTrips toJson ofJson? Fits := by
  refine .of_back ?_ (fun json element h => (tagged_and_fits_of_ofJson? h).2) ?_
  · intro element h
    have hpart : fieldPart element.toJson = element.toJson := rfl
    simp [ofJson?_eq_bind, tag?_toJson, ElementKind.ofName?_name, hpart, fields?_toJson,
      ofFields?_fieldValues h]
  · intro members name
    simp only [ofJson?, Datum.fields?_append_null, Datum.memberOrNull_append_null]

end Element

/-! ## Models of scripts -/

/-- Whether the counts of a reference fit into machine words. -/
def ElementRef.Fits (ref : ElementRef) : Prop :=
  ref.index < Datum.natBound ∧ ref.line < Datum.natBound

/-- References and their JSON agree. -/
theorem ElementRef.roundTrips : RoundTrips toJson ofJson? Fits := by
  refine .of_back ?_ ?_ ?_
  · intro ref ⟨hindex, hline⟩
    rw [← Datum.nat?_count_iff] at hindex hline
    simp [ofJson?, toJson, Datum.fields?, Datum.memberOrNull, Datum.member?, Datum.str?, hindex,
      hline]
  · intro json ref h
    simp only [ofJson?, Option.bind_eq_bind, Option.bind_eq_some_iff] at h
    obtain ⟨values, -, h⟩ := h
    split at h
    · simp only [Option.pure_def, Option.bind_eq_some_iff, Option.some.injEq] at h
      obtain ⟨index, hindex, kind, -, name, -, line, hline, rfl⟩ := h
      exact ⟨Datum.lt_natBound_of_nat? hindex, Datum.lt_natBound_of_nat? hline⟩
    · cases h
  · intro members name
    simp only [ofJson?, Datum.fields?_append_null]

/-- Whether the counts of metadata fit into machine words. -/
def Metadata.Fits (metadata : Metadata) : Prop :=
  metadata.totalLines < Datum.natBound ∧ metadata.nodeCount < Datum.natBound

/-- The fields of metadata are found under their names, and the fault is null if there is none. -/
theorem Metadata.fields?_toJson (metadata : Metadata) :
    metadata.toJson.fields? ["script_path", "total_lines", "node_count", "content_hash", "error"] =
      some [.str metadata.path, Datum.count metadata.totalLines, Datum.count metadata.nodeCount,
        .str metadata.contentHash, Datum.ofOption .str metadata.error] := by
  obtain ⟨path, lines, nodes, hash, error⟩ := metadata
  cases error <;>
    simp [toJson, Datum.fields?, Datum.memberOrNull, Datum.member?, Datum.optionalMember,
      Datum.ofOption]

/-- Metadata and their JSON agree. -/
theorem Metadata.roundTrips : RoundTrips toJson ofJson? Fits := by
  refine .of_back ?_ ?_ ?_
  · intro metadata ⟨hlines, hnodes⟩
    rw [← Datum.nat?_count_iff] at hlines hnodes
    simp [ofJson?, fields?_toJson, Datum.str?, hlines, hnodes]
  · intro json metadata h
    simp only [ofJson?, Option.bind_eq_bind, Option.bind_eq_some_iff] at h
    obtain ⟨values, -, h⟩ := h
    split at h
    · simp only [Option.pure_def, Option.bind_eq_some_iff, Option.some.injEq] at h
      obtain ⟨path, -, lines, hlines, nodes, hnodes, hash, -, error, -, rfl⟩ := h
      exact ⟨Datum.lt_natBound_of_nat? hlines, Datum.lt_natBound_of_nat? hnodes⟩
    · cases h
  · intro members name
    simp only [ofJson?, Datum.fields?_append_null]

namespace Analysis

/-- Whether the counts of a model fit into machine words. -/
def Fits (analysis : Analysis) : Prop :=
  analysis.metadata.Fits ∧ ∀ element ∈ analysis.elements, element.Fits

/-- Models of scripts and their JSON agree. -/
theorem roundTrips : RoundTrips toJson ofJson? Fits := by
  refine .of_back ?_ ?_ ?_
  · intro analysis ⟨hmetadata, helements⟩
    have hlist : Datum.list? Element.ofJson? (Datum.ofList Element.toJson analysis.elements) =
        some analysis.elements :=
      (Datum.list?_ofList_iff ..).mpr fun element hmem =>
        Element.roundTrips.back (helements element hmem)
    simp [ofJson?, toJson, Datum.fields?, Datum.memberOrNull, Datum.member?,
      Metadata.roundTrips.back hmetadata, hlist]
  · intro json analysis h
    simp only [ofJson?, Option.bind_eq_bind, Option.bind_eq_some_iff] at h
    obtain ⟨values, -, h⟩ := h
    split at h
    · simp only [Option.pure_def, Option.bind_eq_some_iff, Option.some.injEq] at h
      obtain ⟨metadata, hmetadata, elements, helements, rfl⟩ := h
      refine ⟨Metadata.roundTrips.fits_of_read hmetadata, fun element hmem => ?_⟩
      obtain ⟨part, hpart⟩ := Datum.exists_of_mem_list? helements hmem
      exact Element.roundTrips.fits_of_read hpart
    · cases h
  · intro members name
    simp only [ofJson?, Datum.fields?_append_null]

/-- Models of scripts and what a graph answers are written as JSON and read again, and so are all their
parts, whatever texts are in them and whichever optional fields they have. What is written is read as
what it was, but for counts that no machine word holds; what has been read from any JSON value is read
again from what is written for it; and a field that is missing counts as null. An element is written
with the name of its kind for a tag, is read only from a value with this tag, and no two kinds have the
same name. -/
theorem json_roundTrips :
    RoundTrips Analysis.toJson Analysis.ofJson? Analysis.Fits ∧
      RoundTrips Metadata.toJson Metadata.ofJson? Metadata.Fits ∧
      RoundTrips Element.toJson Element.ofJson? Element.Fits ∧
      (RoundTrips CallArguments.toJson CallArguments.ofJson? fun _ => True) ∧
      (RoundTrips Signature.toJson Signature.ofJson? fun _ => True) ∧
      (RoundTrips Param.toJson Param.ofJson? fun _ => True) ∧
      (RoundTrips Sighting.toJson Sighting.ofJson? fun _ => True) ∧
      RoundTrips ElementRef.toJson ElementRef.ofJson? ElementRef.Fits ∧
      (∀ element : Element, Element.tag? element.toJson = some element.kind.name) ∧
      (∀ json element, Element.ofJson? json = some element →
        Element.tag? json = some element.kind.name) ∧
      Function.Injective ElementKind.name := by
  refine ⟨roundTrips, Metadata.roundTrips, Element.roundTrips, CallArguments.roundTrips,
    Signature.roundTrips, Param.roundTrips, Sighting.roundTrips, ElementRef.roundTrips,
    Element.tag?_toJson, fun json element h => (Element.tagged_and_fits_of_ofJson? h).1, ?_⟩
  intro kind kind' hname
  have hfound := congrArg ElementKind.ofName? hname
  simpa [ElementKind.ofName?_name] using hfound

/-- A model with an import as an array and a function as an object, in which optional fields are null
or missing and the tag comes last. -/
def mixedJson : Json :=
  .arr [.obj [("content_hash", .str "é\""), ("error", .null), ("script_path", .str "a.py"),
      ("total_lines", .int 2), ("node_count", .int 9)],
    .arr [.arr [.str "import", .str "os.path", .null, .str "p", .int 1],
      .obj [("line", .int 2), ("name", .str "f"), ("args", .arr [.str "*", .str "x"]),
        ("is_async", .bool true), ("more", .int (-1)), ("element", .str "function_def")]]]

/-- What is read from the mixed forms, written in one form, is read as the same. -/
theorem json_roundTrips_mixedJson :
    let model : Analysis := ⟨⟨"a.py", 2, 9, "é\"", none⟩,
      [.ofImport ⟨"os.path", none, some "p", 1⟩, .functionDef ⟨"f", ["*", "x"], none, true, 2⟩]⟩
    ofJson? mixedJson = some model ∧ ofJson? model.toJson = some model ∧ model.Fits := by
  intro model
  have hread : ofJson? mixedJson = some model := by rfl
  have hagain := json_roundTrips.1.again mixedJson model hread
  exact ⟨hread, hagain, (json_roundTrips.1.back_iff model).mp hagain⟩

end Analysis

end UsageAudit

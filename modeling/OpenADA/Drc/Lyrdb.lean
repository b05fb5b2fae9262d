import OpenADA.Drc.Quoted
import OpenADA.Library.TreeEvents
import OpenADA.Scalars.Literal
import Mathlib.Data.List.Lex
import Mathlib.Data.Char

/-! The native report of a DRC run, read from the events of its XML elements: the declared
categories and cells, and the items that are counted against them. -/
namespace OpenADA.Drc.Lyrdb

open PyText TreeEvents Scalars

def maxXmlDepth : ℕ := 128

def maxCategories : ℕ := 4096

def maxCells : ℕ := 100000

def maxItems : ℕ := 1000000

def maxCategoryNameChars : ℕ := 512

def maxCategoryPathChars : ℕ := 4096

def maxCellNameChars : ℕ := 1024

def maxCellVariantChars : ℕ := 1024

def maxCellIdentityChars : ℕ := 2049

def maxDescriptionChars : ℕ := 1000

def maxGeneratorChars : ℕ := 4096

def maxViolationExamples : ℕ := 200

def maxCategoryCountSummaries : ℕ := 200

def maxGeometriesPerViolation : ℕ := 8

def maxGeometriesTotal : ℕ := 256

def maxCoordinatesPerGeometry : ℕ := 64

def maxCoordinatesTotal : ℕ := 4096

def maxGeometryTextChars : ℕ := 1000

def maxGeometryScanChars : ℕ := 65536

def maxMarkerCount : ℕ := 2 ^ 63 - 1

section Elements

inductive Tag where
  | reportDatabase
  | generator
  | topCell
  | description
  | originalFile
  | categories
  | category
  | cells
  | cell
  | items
  | item
  | tags
  | multiplicity
  | values
  | value
  | name
  | variant
  | other (text : List Char)
  deriving DecidableEq

def knownTags : List (String × Tag) :=
  [("report-database", .reportDatabase), ("generator", .generator), ("top-cell", .topCell),
    ("description", .description), ("original-file", .originalFile), ("categories", .categories),
    ("category", .category), ("cells", .cells), ("cell", .cell), ("items", .items),
    ("item", .item), ("tags", .tags), ("multiplicity", .multiplicity), ("values", .values),
    ("value", .value), ("name", .name), ("variant", .variant)]

/-- `_local_name`. -/
def localName (tag : List Char) : List Char := tag.rtakeWhile fun c => decide (c ≠ '\x7d')

def tagOf (tag : List Char) : Tag :=
  ((knownTags.find? fun known => decide (known.1.toList = localName tag)).map Prod.snd).getD
    (.other (localName tag))

/-- What the parser shows of an element: the text before its first child, and its children with
their tags and texts. -/
structure Shown where
  text : Option (List Char)
  children : List (List Char × Option (List Char))

/-- An element as it is shown when it ends, with the open elements around it. Children that were
removed are not shown, and the parser may show children of the open elements that it has read
ahead. -/
structure Element where
  tag : List Char
  shown : Shown
  ancestors : List Shown

def Element.kind (element : Element) : Tag := tagOf element.tag

/-- `(element.text or "").strip()`. -/
def stripped (text : Option (List Char)) : List Char := strip (text.getD [])

def Element.strippedText (element : Element) : List Char := stripped element.shown.text

/-- `_children_named`. -/
def Shown.childrenNamed (shown : Shown) (tag : Tag) : List (List Char × Option (List Char)) :=
  shown.children.filter fun child => decide (tagOf child.1 = tag)

/-- `_child_text`. -/
def Shown.childText (shown : Shown) (tag : Tag) : Option (List Char) :=
  (shown.childrenNamed tag).head?.bind Prod.snd

/-- `_bounded`. -/
def bounded (text : List Char) (limit : ℕ) : List Char :=
  if text.length ≤ limit then text
  else
    let marker := " ... [truncated] ... ".toList
    let retained := limit - marker.length
    let head := retained / 2
    text.take head ++ marker ++ text.rtake (retained - head)

def hasControl (text : List Char) : Bool :=
  text.any fun c => decide (c.toNat < 32 ∨ c.toNat = 127)

end Elements

inductive Reason where
  | namespaceUnsupported
  | xmlTooDeep
  | rootInvalid
  | rootStructureInvalid
  | categoryStructureInvalid
  | cellStructureInvalid
  | itemStructureInvalid
  | generatorTooLong
  | topCellTooLong
  | itemCategoryInvalid
  | categoryInvalid
  | tooManyCategories
  | itemCellInvalid
  | cellInvalid
  | cellDuplicate
  | tooManyCells
  | itemTagsInvalid
  | multiplicityInvalid
  | itemCategoryUnknown
  | itemCategoryAmbiguous
  | itemCellUnknown
  | markerCountInvalid
  | tooManyItems
  | xmlInvalid
  | generatorMissing
  | topCellMissing
  | categoriesMissing
  | cellsMissing
  | itemsMissing
  | categoriesEmpty
  | cellsInvalid
  | generatorInvalid
  | generatorMismatch
  | topCellMismatch
  deriving DecidableEq

/-- What the reader takes from its surroundings: the characters `\d` matches with their values, the
float of a number where it is finite, the digest of a description and the path that a script's name
resolves to. -/
structure Host (F D : Type) where
  digits : DigitClass
  digitValue : Char → ℕ
  float : Number → Option F
  digest : List Char → D
  resolve : List Char → Option (List Char)

variable {F D : Type} (host : Host F D)

section Geometries

inductive Geometry (F : Type) where
  | box (left bottom right top : F)
  | polygon (coordinates : List (F × F)) (truncated : Bool)
  | edgePair (coordinates : List (F × F)) (truncated : Bool)
  | unknown (raw : List Char)

def number (text : List Char) : Option (Number × List Char) :=
  numberOf host.digits.isDigit host.digitValue text

def spacedMark (mark : Char) (text : List Char) : Option (List Char) :=
  match lstrip isSpace text with
  | [] => none
  | c :: rest => if c = mark then some (lstrip isSpace rest) else none

/-- `PAIR_RE` at the start of a text, and the text behind it. -/
def pairAt (text : List Char) : Option ((Number × Number) × List Char) := do
  let (x, rest) ← number host text
  let rest ← spacedMark ',' rest
  let (y, rest) ← number host rest
  some ((x, y), rest)

/-- `PAIR_RE.finditer`; every round passes at least one character. -/
def pairs : ℕ → List Char → List (Number × Number)
  | 0, _ => []
  | _ + 1, [] => []
  | fuel + 1, c :: rest =>
    match pairAt host (c :: rest) with
    | some (pair, behind) => pair :: pairs fuel behind
    | none => pairs fuel rest

/-- `BOX_RE`. -/
def boxOf (text : List Char) : Option (List Number) := do
  let rest ← if "box:".toList.isPrefixOf text then some (text.drop 4) else none
  let rest ← spacedMark '(' rest
  let (left, rest) ← number host rest
  let rest ← spacedMark ',' rest
  let (bottom, rest) ← number host rest
  let rest ← spacedMark ';' rest
  let (right, rest) ← number host rest
  let rest ← spacedMark ',' rest
  let (top, rest) ← number host rest
  if lstrip isSpace rest = [')'] then some [left, bottom, right, top] else none

def floatPair (pair : Number × Number) : Option (F × F) :=
  match host.float pair.1, host.float pair.2 with
  | some x, some y => some (x, y)
  | _, _ => none

/-- `parse_geometry`, with the coordinate pairs that the geometry costs. -/
def parseGeometry (text : List Char) (maximum : ℕ) : Option (Geometry F) × ℕ :=
  let value := strip text
  let unknown := Geometry.unknown (bounded value maxGeometryTextChars)
  if value = [] then (none, 0)
  else
    match (if value.length ≤ maxGeometryScanChars then boxOf host value else none) with
    | some numbers =>
      match numbers.map host.float with
      | [some left, some bottom, some right, some top] => (some (.box left bottom right top), 2)
      | _ => (some unknown, 0)
    | none =>
      let scanned := value.take maxGeometryScanChars
      let found := pairs host scanned.length scanned
      let truncated := decide (maximum < found.length) || decide (scanned.length < value.length)
      match (found.take maximum).mapM (floatPair host) with
      | none => (some unknown, 0)
      | some coordinates =>
        if "polygon:".toList.isPrefixOf value ∧ coordinates ≠ [] then
          (some (.polygon coordinates truncated), coordinates.length)
        else if "edge-pair:".toList.isPrefixOf value ∧ coordinates ≠ [] then
          (some (.edgePair coordinates truncated), coordinates.length)
        else (some unknown, 0)

end Geometries

section Summary

abbrev CategoryPath := List (List Char)

/-- A declared category: its path, its bounded description, and what tells its description from
others. -/
structure Category (D : Type) where
  path : CategoryPath
  description : List Char
  identity : ℕ × D

/-- The declared categories, the first declaration of each path kept, and the paths that were
declared with another description. -/
structure Catalog (D : Type) where
  entries : List (Category D)
  conflicts : List CategoryPath
  declarations : ℕ

structure Cells where
  identities : List (List Char)
  baseNames : List (List Char)

structure Item (F : Type) where
  category : CategoryPath
  cell : List Char
  categoryFields : ℕ
  cellFields : ℕ
  multiplicityFields : ℕ
  tagsFields : ℕ
  tags : List (List Char)
  multiplicity : ℕ
  waived : Bool
  geometries : List (Geometry F)
  geometryValues : ℕ

def Item.new : Item F := ⟨[], [], 0, 0, 0, 0, [], 1, false, [], 0⟩

structure Violation (F : Type) where
  category : List Char
  categoryPath : CategoryPath
  description : List Char
  cell : List Char
  multiplicity : ℕ
  waived : Bool
  tags : List (List Char)
  geometries : List (Geometry F)
  geometriesTruncated : Bool

structure Totals (F : Type) where
  items : ℕ
  markers : ℕ
  waived : ℕ
  counts : List (CategoryPath × ℕ)
  violations : List (Violation F)

structure Kept where
  geometryValues : ℕ
  geometries : ℕ
  coordinates : ℕ

structure Header where
  generator : List Char
  topCell : List Char
  description : List Char
  originalFile : List Char

structure Summary (F D : Type) where
  sections : List Tag
  header : Header
  inItem : Bool
  item : Item F
  catalog : Catalog D
  cells : Cells
  totals : Totals F
  kept : Kept

def Summary.empty : Summary F D :=
  ⟨[], ⟨[], [], [], []⟩, false, .new, ⟨[], [], 0⟩, ⟨[], []⟩, ⟨0, 0, 0, [], []⟩, ⟨0, 0, 0⟩⟩

end Summary

section Opening

def alternates (even odd : Tag) : List Tag → Bool
  | [] => true
  | tag :: rest => decide (tag = even) && alternates odd even rest

/-- `_category_declaration_ancestry`. -/
def categoryDeclarationAncestry (tags : List Tag) : Bool :=
  decide (3 ≤ tags.length ∧ tags.take 2 = [.reportDatabase, .categories]) &&
    (decide ((tags.drop 2).length % 2 = 1) && alternates .category .categories (tags.drop 2))

/-- `_category_container_ancestry`. -/
def categoryContainerAncestry (tags : List Tag) : Bool :=
  if tags = [.reportDatabase, .categories] then true
  else
    decide (4 ≤ tags.length ∧ tags.take 2 = [.reportDatabase, .categories]) &&
      (decide ((tags.drop 2).length % 2 = 0) && alternates .category .categories (tags.drop 2))

def itemPath : List Tag := [.reportDatabase, .items, .item]

/-- The start of an element; `tags` ends in its tag. -/
def openElement (tags : List Tag) (element : Element) (summary : Summary F D) :
    Except Reason (Summary F D) :=
  let tag := element.kind
  if localName element.tag ≠ element.tag then .error .namespaceUnsupported
  else if maxXmlDepth < tags.length then .error .xmlTooDeep
  else if tags.length = 1 ∧ tag ≠ .reportDatabase then .error .rootInvalid
  else if (tag = .generator ∨ tag = .topCell) ∧ tags ≠ [.reportDatabase, tag] then
    .error .rootStructureInvalid
  else if tag = .categories ∧ categoryContainerAncestry tags = false then
    .error .categoryStructureInvalid
  else if tag = .cells ∧ tags ≠ [.reportDatabase, .cells] then .error .cellStructureInvalid
  else if tag = .items ∧ tags ≠ [.reportDatabase, .items] then .error .itemStructureInvalid
  else if tag = .item ∧ (summary.inItem = true ∨ tags ≠ itemPath) then .error .itemStructureInvalid
  else
    let sections :=
      if tags.length = 2 ∧ tags.head? = some .reportDatabase then summary.sections ++ [tag]
      else summary.sections
    if tag = .item then .ok { summary with sections, inItem := true, item := .new }
    else .ok { summary with sections }

end Opening

section Closing

def readHeader (tags : List Tag) (element : Element) (header : Header) : Except Reason Header :=
  if tags.dropLast.getLast? ≠ some .reportDatabase then .ok header
  else
    match element.kind with
    | .generator =>
      if maxGeneratorChars < element.strippedText.length then .error .generatorTooLong
      else .ok { header with generator := element.strippedText }
    | .topCell =>
      if maxCellNameChars < element.strippedText.length then .error .topCellTooLong
      else .ok { header with topCell := element.strippedText }
    | .description =>
      .ok { header with description := bounded element.strippedText maxDescriptionChars }
    | .originalFile =>
      .ok { header with originalFile := bounded element.strippedText maxGeneratorChars }
    | _ => .ok header

def isItemField (tags : List Tag) : Bool :=
  decide (tags.dropLast.getLast? = some .item ∧ tags.length = 4 ∧
    (tags.drop 1).take 2 = [.items, .item])

def readItemCategory (tags : List Tag) (element : Element) (item : Item F) :
    Except Reason (Item F) :=
  if isItemField tags = false then .error .itemStructureInvalid
  else if item.categoryFields + 1 ≠ 1 then .error .itemStructureInvalid
  else
    match parseCategoryPath (element.shown.text.getD []) with
    | none | some [] => .error .itemCategoryInvalid
    | some (part :: rest) =>
      .ok { item with categoryFields := item.categoryFields + 1, category := part :: rest }

def categoryLabel (path : CategoryPath) : List Char := ['.'].intercalate path

def isCategoryName (name : List Char) : Bool :=
  decide (name ≠ [] ∧ name.length ≤ maxCategoryNameChars)

def ancestorNames (tags : List Tag) (ancestors : List Shown) : List (List Char) :=
  (((tags.drop 2).dropLast.zip (ancestors.drop 2)).filter fun ancestor =>
    decide (ancestor.1 = .category)).map fun ancestor => stripped (ancestor.2.childText .name)

def categoryName (element : Element) : List Char :=
  stripped ((element.shown.childrenNamed .name).head?.bind Prod.snd)

def declaredPath (tags : List Tag) (element : Element) : CategoryPath :=
  ancestorNames tags element.ancestors ++ [categoryName element]

def rawDescription (element : Element) : List Char := stripped (element.shown.childText .description)

def declaredCategory (tags : List Tag) (element : Element) : Category D where
  path := declaredPath tags element
  description := bounded (rawDescription element) maxDescriptionChars
  identity := ((rawDescription element).length, host.digest (rawDescription element))

def Catalog.find (catalog : Catalog D) (path : CategoryPath) : Option (Category D) :=
  catalog.entries.find? fun entry => decide (entry.path = path)

def Catalog.declare [DecidableEq D] (catalog : Catalog D) (category : Category D) : Catalog D :=
  match catalog.find category.path with
  | some entry =>
    { catalog with
      declarations := catalog.declarations + 1
      conflicts :=
        if entry.identity = category.identity then catalog.conflicts
        else catalog.conflicts ++ [category.path] }
  | none =>
    { catalog with
      declarations := catalog.declarations + 1
      entries := catalog.entries ++ [category] }

def declareCategory [DecidableEq D] (tags : List Tag) (element : Element) (catalog : Catalog D) :
    Except Reason (Catalog D) :=
  if categoryDeclarationAncestry tags = false then .error .categoryStructureInvalid
  else if (element.shown.childrenNamed .name).length ≠ 1 then .error .categoryInvalid
  else if isCategoryName (categoryName element) = false then .error .categoryInvalid
  else if (ancestorNames tags element.ancestors).all isCategoryName = false then
    .error .categoryInvalid
  else if maxCategoryPathChars < (categoryLabel (declaredPath tags element)).length then
    .error .categoryInvalid
  else if maxCategories ≤ catalog.declarations then .error .tooManyCategories
  else .ok (catalog.declare (declaredCategory host tags element))

def readItemCell (tags : List Tag) (element : Element) (item : Item F) : Except Reason (Item F) :=
  if isItemField tags = false then .error .itemStructureInvalid
  else if item.cellFields + 1 ≠ 1 then .error .itemStructureInvalid
  else if maxCellIdentityChars < element.strippedText.length ∨
      hasControl element.strippedText = true then .error .itemCellInvalid
  else .ok { item with cellFields := item.cellFields + 1, cell := element.strippedText }

def cellName (element : Element) : List Char :=
  stripped ((element.shown.childrenNamed .name).head?.bind Prod.snd)

def cellVariant (element : Element) : List Char :=
  stripped ((element.shown.childrenNamed .variant).head?.bind Prod.snd)

def cellIdentity (element : Element) : List Char :=
  if cellVariant element = [] then cellName element
  else cellName element ++ ':' :: cellVariant element

def Cells.add (cells : Cells) (element : Element) : Cells where
  identities := cells.identities ++ [cellIdentity element]
  baseNames :=
    if cellName element = [] then cells.baseNames else cells.baseNames ++ [cellName element]

def cellPath : List Tag := [.reportDatabase, .cells, .cell]

def declareCell (tags : List Tag) (element : Element) (cells : Cells) : Except Reason Cells :=
  if ¬ (tags.dropLast.getLast? = some .cells ∧ tags.length = 3 ∧
      (tags.drop 1).head? = some .cells) then .error .cellStructureInvalid
  else if (element.shown.childrenNamed .name).length ≠ 1 ∨
      1 < (element.shown.childrenNamed .variant).length then .error .cellInvalid
  else if (cellName element = [] ∧ cellVariant element ≠ []) ∨
      maxCellNameChars < (cellName element).length ∨
      maxCellVariantChars < (cellVariant element).length ∨
      hasControl (cellName element ++ cellVariant element) = true then .error .cellInvalid
  else if maxCellIdentityChars < (cellIdentity element).length then .error .cellInvalid
  else if cellIdentity element ∈ cells.identities then .error .cellDuplicate
  else if maxCells ≤ cells.identities.length then .error .tooManyCells
  else .ok (cells.add element)

def waivedTag : List Char := "waived".toList

def readItemTags (tags : List Tag) (element : Element) (item : Item F) : Except Reason (Item F) :=
  if tags ≠ itemPath ++ [Tag.tags] then .error .itemStructureInvalid
  else if item.tagsFields + 1 ≠ 1 then .error .itemStructureInvalid
  else
    match parseItemTags (element.shown.text.getD []) with
    | none => .error .itemTagsInvalid
    | some parsed =>
      .ok { item with
        tagsFields := item.tagsFields + 1
        tags := parsed
        waived := decide (waivedTag ∈ parsed) }

/-- `_parse_positive_count`. -/
def parsePositiveCount (text : List Char) : Option ℕ :=
  if text = [] ∨ text.all Char.isDigit = false ∨ 19 < text.length then none
  else
    let parsed := natOf (fun c => c.toNat - 48) text
    if parsed = 0 ∨ maxMarkerCount < parsed then none else some parsed

def readItemMultiplicity (tags : List Tag) (element : Element) (item : Item F) :
    Except Reason (Item F) :=
  if tags ≠ itemPath ++ [Tag.multiplicity] then .error .itemStructureInvalid
  else if item.multiplicityFields + 1 ≠ 1 then .error .itemStructureInvalid
  else
    match parsePositiveCount element.strippedText with
    | none => .error .multiplicityInvalid
    | some parsed =>
      .ok { item with
        multiplicityFields := item.multiplicityFields + 1
        multiplicity := parsed }

/-- The value of an item, kept while the limits of the item and of the report allow it. -/
def keepGeometry (element : Element) (item : Item F) (kept : Kept) : Item F × Kept :=
  let item := { item with geometryValues := item.geometryValues + 1 }
  let kept := { kept with geometryValues := kept.geometryValues + 1 }
  if item.geometries.length < maxGeometriesPerViolation ∧ kept.geometries < maxGeometriesTotal ∧
      kept.coordinates < maxCoordinatesTotal then
    let remaining := min maxCoordinatesPerGeometry (maxCoordinatesTotal - kept.coordinates)
    match parseGeometry host (element.shown.text.getD []) remaining with
    | (none, _) => (item, kept)
    | (some geometry, cost) =>
      ({ item with geometries := item.geometries ++ [geometry] },
        { kept with geometries := kept.geometries + 1, coordinates := kept.coordinates + cost })
  else (item, kept)

def valuePath : List Tag := itemPath ++ [Tag.values, Tag.value]

def addCount (path : CategoryPath) (amount : ℕ) : List (CategoryPath × ℕ) → List (CategoryPath × ℕ)
  | [] => [(path, amount)]
  | (other, count) :: rest =>
    if other = path then (other, count + amount) :: rest
    else (other, count) :: addCount path amount rest

def violationOf (catalog : Catalog D) (item : Item F) : Violation F where
  category := bounded (strip (categoryLabel item.category)) maxCategoryPathChars
  categoryPath := item.category
  description := ((catalog.find item.category).map Category.description).getD []
  cell := bounded (strip item.cell) maxCellNameChars
  multiplicity := item.multiplicity
  waived := item.waived
  tags := item.tags
  geometries := item.geometries
  geometriesTruncated := decide (item.geometries.length < item.geometryValues)

def Totals.count (totals : Totals F) (item : Item F) (violation : Violation F) : Totals F where
  items := totals.items + 1
  markers := totals.markers + item.multiplicity
  waived := if item.waived then totals.waived + item.multiplicity else totals.waived
  counts := addCount item.category item.multiplicity totals.counts
  violations :=
    if totals.violations.length < maxViolationExamples then totals.violations ++ [violation]
    else totals.violations

def countItem (catalog : Catalog D) (cells : Cells) (item : Item F) (totals : Totals F) :
    Except Reason (Totals F) :=
  if item.category = [] ∨ item.cellFields ≠ 1 ∨ item.tagsFields ≠ 1 ∨ item.multiplicityFields ≠ 1
  then .error .itemStructureInvalid
  else if (catalog.find item.category).isNone then .error .itemCategoryUnknown
  else if item.category ∈ catalog.conflicts then .error .itemCategoryAmbiguous
  else if item.cell ∉ cells.identities then .error .itemCellUnknown
  else if maxMarkerCount < totals.markers + item.multiplicity then .error .markerCountInvalid
  else if maxItems ≤ totals.items then .error .tooManyItems
  else .ok (totals.count item (violationOf catalog item))

def readElement [DecidableEq D] (tags : List Tag) (element : Element) (summary : Summary F D) :
    Except Reason (Summary F D) :=
  match element.kind with
  | .category =>
    if summary.inItem = true then
      (readItemCategory tags element summary.item).map fun item => { summary with item }
    else (declareCategory host tags element summary.catalog).map fun catalog =>
      { summary with catalog }
  | .cell =>
    if summary.inItem = true then
      (readItemCell tags element summary.item).map fun item => { summary with item }
    else (declareCell tags element summary.cells).map fun cells => { summary with cells }
  | .tags =>
    if summary.inItem = true then
      (readItemTags tags element summary.item).map fun item => { summary with item }
    else .ok summary
  | .multiplicity =>
    if summary.inItem = true then
      (readItemMultiplicity tags element summary.item).map fun item => { summary with item }
    else .ok summary
  | .value =>
    if summary.inItem = true then
      if tags ≠ valuePath then .error .itemStructureInvalid
      else
        let read := keepGeometry host element summary.item summary.kept
        .ok { summary with item := read.1, kept := read.2 }
    else .ok summary
  | .item =>
    (countItem summary.catalog summary.cells summary.item summary.totals).map fun totals =>
      { summary with totals, inItem := false }
  | _ => .ok summary

def closeElement [DecidableEq D] (tags : List Tag) (element : Element) (summary : Summary F D) :
    Except Reason (Summary F D) :=
  (readHeader tags element summary.header).bind fun header =>
    readElement host tags element { summary with header }

end Closing

section Report

/-- The reader of the report's events; its stack holds the tags of the open elements. -/
def lyrdbReader [DecidableEq D] : Reader Tag Element (Summary F D) Reason where
  onOpen := openElement
  onClose := closeElement host

def escapeValues : List (Char × Char) :=
  [('\\', '\\'), ('\'', '\''), ('"', '"'), ('n', '\n'), ('r', '\r'), ('t', '\t')]

def decodeScript (quote : Char) : List Char → Option (List Char)
  | [] => some []
  | c :: rest =>
    if c = quote then none
    else if c ≠ '\\' then (decodeScript quote rest).map fun decoded => c :: decoded
    else
      match rest with
      | [] => none
      | escaped :: rest =>
        match escapeValues.lookup escaped with
        | none => none
        | some value => (decodeScript quote rest).map fun decoded => value :: decoded

/-- The mark and the text between the marks of `GENERATOR_RE`. -/
def generatorToken (generator : List Char) : Option (Char × List Char) :=
  if "drc:".toList.isPrefixOf generator then
    let rest := lstrip isSpace (generator.drop 4)
    if "script=".toList.isPrefixOf rest then
      match rest.drop 7 with
      | [] => none
      | quote :: body =>
        if (quote = '\'' ∨ quote = '"') ∧ body.getLast? = some quote ∧ body.dropLast ≠ [] ∧
            '\n' ∉ body.dropLast then some (quote, body.dropLast)
        else none
    else none
  else none

/-- `_generator_script`. -/
def generatorScript (generator : List Char) : Option (List Char) :=
  (generatorToken generator).bind fun token =>
    (decodeScript token.1 token.2).bind host.resolve

def countBefore (a b : CategoryPath × ℕ) : Bool :=
  decide (b.2 < a.2) || (decide (a.2 = b.2) && decide (a.1 ≤ b.1))

def sortedCounts (counts : List (CategoryPath × ℕ)) : List (CategoryPath × ℕ) :=
  counts.insertionSort fun a b => countBefore a b = true

structure Normalization where
  geometryValues : ℕ
  retainedGeometries : ℕ
  retainedCoordinatePairs : ℕ
  globalGeometryLimitReached : Bool

structure Report (F : Type) where
  description : List Char
  originalFile : List Char
  generator : List Char
  generatorScript : List Char
  topCell : List Char
  categoryCount : ℕ
  cellCount : ℕ
  itemCount : ℕ
  totalViolations : ℕ
  waivedViolations : ℕ
  categoryCounts : List (List Char × CategoryPath × ℕ)
  categoryCountsTruncated : Bool
  violations : List (Violation F)
  violationsTruncated : Bool
  normalization : Normalization

def countSummaries (counts : List (CategoryPath × ℕ)) : List (List Char × CategoryPath × ℕ) :=
  ((sortedCounts counts).take maxCategoryCountSummaries).map fun entry =>
    (categoryLabel entry.1, entry.1, entry.2)

def reportOf (summary : Summary F D) (script : List Char) : Report F where
  description := summary.header.description
  originalFile := summary.header.originalFile
  generator := summary.header.generator
  generatorScript := script
  topCell := summary.header.topCell
  categoryCount := summary.catalog.entries.length
  cellCount := summary.cells.identities.length
  itemCount := summary.totals.items
  totalViolations := summary.totals.markers
  waivedViolations := summary.totals.waived
  categoryCounts := countSummaries summary.totals.counts
  categoryCountsTruncated :=
    decide ((countSummaries summary.totals.counts).length < summary.totals.counts.length)
  violations := summary.totals.violations
  violationsTruncated := decide (summary.totals.violations.length < summary.totals.items)
  normalization :=
    { geometryValues := summary.kept.geometryValues
      retainedGeometries := summary.kept.geometries
      retainedCoordinatePairs := summary.kept.coordinates
      globalGeometryLimitReached :=
        decide (summary.kept.geometries < summary.kept.geometryValues) &&
          decide (maxGeometriesTotal ≤ summary.kept.geometries) }

def finishReport (expectedDeck expectedTopCell : Option (List Char)) (summary : Summary F D) :
    Except Reason (Report F) :=
  let header := summary.header
  if summary.sections.count .generator ≠ 1 then .error .generatorMissing
  else if summary.sections.count .topCell ≠ 1 ∨ header.topCell = [] ∨
      hasControl header.topCell = true then .error .topCellMissing
  else if summary.sections.count .categories ≠ 1 then .error .categoriesMissing
  else if summary.sections.count .cells ≠ 1 then .error .cellsMissing
  else if summary.sections.count .items ≠ 1 then .error .itemsMissing
  else if summary.catalog.entries = [] then .error .categoriesEmpty
  else if summary.cells.identities = [] ∨ header.topCell ∉ summary.cells.baseNames then
    .error .cellsInvalid
  else
    match generatorScript host header.generator with
    | none => .error .generatorInvalid
    | some script =>
      if expectedDeck.any (fun deck => decide (deck ≠ script)) = true then
        .error .generatorMismatch
      else if expectedTopCell.any (fun cell => decide (cell ≠ header.topCell)) = true then
        .error .topCellMismatch
      else .ok (reportOf summary script)

/-- `parse_lyrdb_stream` on the events that the parser gives. -/
def parseLyrdbStream [DecidableEq D] (expectedDeck expectedTopCell : Option (List Char))
    (events : List (Event Element)) : Except Reason (Report F) :=
  (events.foldlM ((lyrdbReader host).read Element.kind) ([], .empty)).bind fun state =>
    if state.1 ≠ [] then .error .xmlInvalid
    else finishReport host expectedDeck expectedTopCell state.2

end Report

end OpenADA.Drc.Lyrdb

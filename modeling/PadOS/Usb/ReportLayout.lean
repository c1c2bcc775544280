import PadOS.Usb.ReportDescriptor
import Mathlib.Tactic.Common

/-!
# The layout of a report

Where a short item begins and ends does not depend on what the parser has read so far, so a
descriptor is a list of items. The main items of data among them tile the report of their type and
ID, with fields and with padding.
-/

namespace PadOS.Usb

open Tiling HIDReportDescriptorParser List Option

/-- A short item. -/
structure Item where
  type : Nat
  tag : Nat
  data : List UInt8
  deriving DecidableEq, Repr

def splitItems : List UInt8 → Option (List Item)
  | [] => some []
  | itemPrefix :: rest =>
    if itemPrefix = USB_HID_ITEM_LONG_PREFIX then
      match rest with
      | itemSize :: _ :: behind =>
        if itemSize.toNat > behind.length then none
        else splitItems (behind.drop itemSize.toNat)
      | _ => none
    else if GetShortItemDataSize itemPrefix > rest.length then none
    else
      (splitItems (rest.drop (GetShortItemDataSize itemPrefix))).map
        (⟨itemPrefix.toNat / 4 % 4, itemPrefix.toNat / 16,
          rest.take (GetShortItemDataSize itemPrefix)⟩ :: ·)
  termination_by bytes => bytes.length
  decreasing_by
    · simp only [length_drop, length_cons]
      omega
    · simp only [length_drop, length_cons]
      omega

/-- A main item of data, with the global items it is read under. -/
structure DataItem where
  reportType : USBHIDReportType
  reportID : Nat
  flags : Nat
  reportSize : Nat
  reportCount : Nat
  deriving DecidableEq, Repr

namespace HIDReportDescriptorParser

variable (p : HIDReportDescriptorParser)

def takeItem (item : Item) : Option HIDReportDescriptorParser :=
  p.ParseShortItem item.type item.tag item.data

def takeItems (p : HIDReportDescriptorParser) : List Item → Option HIDReportDescriptorParser
  | [] => some p
  | item :: rest =>
    match p.takeItem item with
    | none => none
    | some p => p.takeItems rest

theorem parseItems_eq (bytes : List UInt8) :
    p.parseItems bytes = (splitItems bytes).bind p.takeItems := by
  induction p, bytes using parseItems.induct with
  | case1 p => simp [parseItems, splitItems, takeItems]
  | case2 p itemSize skipped behind long =>
    simp [parseItems, splitItems, long]
  | case3 p itemSize skipped behind fits ih =>
    simp [parseItems, splitItems, fits, ih]
  | case4 p rest short =>
    simp [parseItems, splitItems]
  | case5 p itemPrefix rest notLong long =>
    unfold parseItems splitItems
    simp [notLong, long]
  | case6 p itemPrefix rest notLong fits refused =>
    unfold parseItems splitItems
    simp only [notLong, fits, refused, if_false]
    cases splitItems (rest.drop (GetShortItemDataSize itemPrefix)) with
    | none => rfl
    | some items => simp [takeItems, takeItem, refused]
  | case7 p itemPrefix rest notLong fits q taken ih =>
    unfold parseItems splitItems
    simp only [notLong, fits, taken, if_false, ih]
    cases splitItems (rest.drop (GetShortItemDataSize itemPrefix)) with
    | none => rfl
    | some items => simp [takeItems, takeItem, taken]

/-- The item of data that the next item is, if it is one. -/
def dataItem (item : Item) : Option DataItem :=
  if item.type = USB_HID_ITEM_TYPE_MAIN then
    (dataType item.tag).map fun reportType =>
      ⟨reportType, p.globalState.reportID, ReadUnsignedItemData item.data,
        p.globalState.reportSize, p.globalState.reportCount⟩
  else none

def dataItems (p : HIDReportDescriptorParser) : List Item → List DataItem
  | [] => []
  | item :: rest =>
    match p.takeItem item with
    | none => []
    | some q => (p.dataItem item).toList ++ q.dataItems rest

end HIDReportDescriptorParser

/-- The main items of data of a descriptor, in the order they stand in. -/
def descriptorDataItems (descriptor : List UInt8) : List DataItem :=
  match splitItems descriptor with
  | none => []
  | some items => dataItems {} items

def DataItem.width (item : DataItem) : Nat := item.reportSize * item.reportCount

def DataItem.belongs (reportType : USBHIDReportType) (reportID : Nat) (item : DataItem) : Bool :=
  item.reportType = reportType ∧ item.reportID = reportID

def USBHIDReportField.belongs (reportType : USBHIDReportType) (reportID : Nat)
    (field : USBHIDReportField) : Bool :=
  field.reportType = reportType ∧ field.reportID = reportID

def USBHIDReportField.extent (field : USBHIDReportField) : Extent :=
  ⟨field.bitOffset, field.bitSize⟩

/-- What takes up bits of a report. -/
inductive Piece
  | field (field : USBHIDReportField)
  | padding (extent : Extent)

namespace Piece

def extent : Piece → Extent
  | field f => f.extent
  | padding e => e

def field? : Piece → Option USBHIDReportField
  | field f => some f
  | padding _ => none

end Piece

/-- What an item of data adds to its report. -/
inductive Covers (item : DataItem) : List Piece → Prop
  | padding (offset : Nat) (constant : isConstant item.flags = true) :
      Covers item [.padding ⟨offset, item.width⟩]
  | fields (fields : List USBHIDReportField) (isData : isConstant item.flags = false)
      (count : fields.length = item.reportCount)
      (sizes : ∀ f ∈ fields, f.bitSize = item.reportSize) : Covers item (fields.map .field)

/-- The items fill their report with the fields, and with padding between them. -/
structure Laid (items : List DataItem) (fields : List USBHIDReportField) (start finish : Nat)
    (groups : List (List Piece)) : Prop where
  covers : Forall₂ Covers items groups
  fields_eq : groups.flatten.filterMap Piece.field? = fields
  tiles : Tiles start (groups.flatten.map Piece.extent) finish
  widths : start + (items.map DataItem.width).sum = finish
  fits : finish < 2 ^ 32

variable {p q : HIDReportDescriptorParser} {reportType other : USBHIDReportType}
  {reportID otherID flags offset bitSize start finish : Nat} {items rest : List Item}
  {dataBefore : List DataItem} {item : Item}

/-! ## Fields of one item -/

theorem makeField_eq {index : Nat} {field : USBHIDReportField}
    (made : p.makeField reportType flags offset index = some field) :
    field.reportType = reportType ∧ field.reportID = p.globalState.reportID ∧
      field.extent = ⟨offset + index * p.globalState.reportSize, p.globalState.reportSize⟩ := by
  simp only [makeField, bind_eq_bind, bind_eq_some_iff, Option.pure_def,
    some.injEq] at made
  rcases made with ⟨place, product, sum, added, rfl⟩
  have inside := multiplyWithOverflowCheck_eq product
  have behind := addWithOverflowCheck_eq inside.2 added
  refine ⟨rfl, rfl, ?_⟩
  rw [USBHIDReportField.extent, behind.1, inside.1]

theorem mapM_makeField {indices : List Nat} {fields : List USBHIDReportField}
    (made : indices.mapM (p.makeField reportType flags offset) = some fields) :
    Forall₂ (fun index field => p.makeField reportType flags offset index = some field)
      indices fields := by
  induction indices generalizing fields with
  | nil =>
    simp only [mapM_nil, Option.pure_def, some.injEq] at made
    rw [← made]
    exact .nil
  | cons index rest ih =>
    simp only [mapM_cons, bind_eq_bind, bind_eq_some_iff, Option.pure_def,
      some.injEq] at made
    rcases made with ⟨field, first, others, later, rfl⟩
    exact .cons first (ih later)

theorem mem_of_forall₂ {α β : Type} {R : α → β → Prop} {xs : List α} {ys : List β} {y : β}
    (related : Forall₂ R xs ys) (isOne : y ∈ ys) : ∃ x, R x y := by
  induction related with
  | nil => cases isOne
  | cons first _ ih =>
    rcases mem_cons.mp isOne with rfl | isOne
    · exact ⟨_, first⟩
    · exact ih isOne

theorem addedFields_laid {added : List USBHIDReportField} {data : DataItem}
    (isItem : data = ⟨reportType, p.globalState.reportID, flags, p.globalState.reportSize,
      p.globalState.reportCount⟩) (made : p.addedFields reportType flags offset = some added) :
    ∃ pieces, Covers data pieces ∧ pieces.filterMap Piece.field? = added ∧
      (∀ f ∈ added, f.belongs reportType p.globalState.reportID) ∧
      Tiles offset (pieces.map Piece.extent)
        (offset + p.globalState.reportSize * p.globalState.reportCount) := by
  subst isItem
  unfold addedFields at made
  split at made
  · rename_i constant
    obtain rfl := some.inj made
    refine ⟨_, .padding offset constant, rfl, by simp, ?_⟩
    exact ⟨rfl, rfl⟩
  · rename_i isData
    have each := mapM_makeField made
    have extents : ((range p.globalState.reportCount).map fun i =>
        (⟨offset + i * p.globalState.reportSize, p.globalState.reportSize⟩ : Extent)) =
          added.map USBHIDReportField.extent := by
      rw [← forall₂_eq_eq_eq, forall₂_map_left_iff, forall₂_map_right_iff]
      exact each.imp fun _ _ one => (makeField_eq one).2.2.symm
    have ofReport : ∀ f ∈ added, f.belongs reportType p.globalState.reportID ∧
        f.bitSize = p.globalState.reportSize := by
      intro f isOne
      rcases mem_of_forall₂ each isOne with ⟨index, made⟩
      rcases makeField_eq made with ⟨ofType, ofID, place⟩
      exact ⟨by simp [USBHIDReportField.belongs, ofType, ofID], congrArg Extent.size place⟩
    refine ⟨added.map .field, .fields added (by simpa using isData) ?_ ?_, ?_, ?_, ?_⟩
    · have long := each.length_eq
      rw [length_range] at long
      exact long.symm
    · exact fun f isOne => (ofReport f isOne).2
    · rw [filterMap_map]
      exact filterMap_some
    · exact fun f isOne => (ofReport f isOne).1
    · rw [List.map_map]
      show Tiles offset (added.map USBHIDReportField.extent) _
      rw [← extents]
      exact tiles_range _ _ _

/-! ## Recorded sizes -/

theorem find_setBitSize (entries : List USBHIDReportBitSize) :
    ((setBitSize reportType reportID bitSize entries).find?
        (sameReport other otherID)).map (·.bitSize) =
      if other = reportType ∧ otherID = reportID then some bitSize
      else (entries.find? (sameReport other otherID)).map (·.bitSize) := by
  induction entries with
  | nil =>
    by_cases same : other = reportType ∧ otherID = reportID
    · simp [setBitSize, sameReport, same]
    · have differs : ¬(reportType = other ∧ reportID = otherID) :=
        fun both => same ⟨both.1.symm, both.2.symm⟩
      simp [setBitSize, sameReport, same, differs]
  | cons entry rest ih =>
    by_cases here : entry.reportType = reportType ∧ entry.reportID = reportID
    · rcases here with ⟨rfl, rfl⟩
      by_cases same : other = entry.reportType ∧ otherID = entry.reportID
      · simp [setBitSize, sameReport, same]
      · have differs : ¬(entry.reportType = other ∧ entry.reportID = otherID) :=
          fun both => same ⟨both.1.symm, both.2.symm⟩
        simp [setBitSize, sameReport, same, differs]
    · have kept : setBitSize reportType reportID bitSize (entry :: rest) =
          entry :: setBitSize reportType reportID bitSize rest := by
        simp [setBitSize, sameReport, here]
      rw [kept, find?_cons, find?_cons]
      by_cases asked : entry.reportType = other ∧ entry.reportID = otherID
      · rcases asked with ⟨rfl, rfl⟩
        simp [sameReport, here]
      · simpa [sameReport, asked] using ih

theorem getReportBitSize_eq :
    p.GetReportBitSize reportType reportID =
      ((p.reportBitSizes.find? (sameReport reportType reportID)).map (·.bitSize)).getD
        (reportStart reportID) := by
  unfold GetReportBitSize
  cases p.reportBitSizes.find? (sameReport reportType reportID) with
  | none => rfl
  | some entry => rfl

theorem getReportBitSize_set :
    (p.SetReportBitSize reportType reportID bitSize).GetReportBitSize other otherID =
      if other = reportType ∧ otherID = reportID then bitSize
      else p.GetReportBitSize other otherID := by
  rw [getReportBitSize_eq, getReportBitSize_eq]
  show ((List.find? _ (setBitSize _ _ _ _)).map _).getD _ = _
  rw [find_setBitSize]
  split
  · rfl
  · rfl

/-! ## What one item changes -/

theorem addReportFields_cases (added : p.AddReportFields reportType flags = some q) :
    ∃ fields pieces, Covers ⟨reportType, p.globalState.reportID, flags, p.globalState.reportSize,
        p.globalState.reportCount⟩ pieces ∧
      pieces.filterMap Piece.field? = fields ∧
      (∀ f ∈ fields, f.belongs reportType p.globalState.reportID) ∧
      q.fields = p.fields ++ fields ∧
      Tiles (p.GetReportBitSize reportType p.globalState.reportID) (pieces.map Piece.extent)
        (q.GetReportBitSize reportType p.globalState.reportID) ∧
      p.GetReportBitSize reportType p.globalState.reportID +
          p.globalState.reportSize * p.globalState.reportCount =
        q.GetReportBitSize reportType p.globalState.reportID ∧
      q.GetReportBitSize reportType p.globalState.reportID < 2 ^ 32 ∧
      ∀ other otherID, ¬(other = reportType ∧ otherID = p.globalState.reportID) →
        q.GetReportBitSize other otherID = p.GetReportBitSize other otherID := by
  simp only [AddReportFields, bind_eq_bind, bind_eq_some_iff, Option.pure_def,
    some.injEq] at added
  rcases added with ⟨size, product, next, sum, fields, made, rfl⟩
  have inside := multiplyWithOverflowCheck_eq product
  have behind := addWithOverflowCheck_eq inside.2 sum
  rcases addedFields_laid rfl made with ⟨pieces, covers, pieceFields, ofReport, tiles⟩
  have size_eq : ∀ other otherID, HIDReportDescriptorParser.GetReportBitSize
      ({ p with fields := p.fields ++ fields }.SetReportBitSize reportType p.globalState.reportID
        next) other otherID =
      if other = reportType ∧ otherID = p.globalState.reportID then next
      else p.GetReportBitSize other otherID := fun _ _ => getReportBitSize_set
  refine ⟨fields, pieces, covers, pieceFields, ofReport, rfl, ?_, ?_, ?_, ?_⟩
  · rw [size_eq, if_pos ⟨rfl, rfl⟩, behind.1, inside.1]
    exact tiles
  · rw [size_eq, if_pos ⟨rfl, rfl⟩, behind.1, inside.1]
  · rw [size_eq, if_pos ⟨rfl, rfl⟩]
    exact behind.2
  · intro other otherID differs
    rw [size_eq, if_neg differs]

/-- What the reports are read from. -/
def SameReports (p q : HIDReportDescriptorParser) : Prop :=
  q.fields = p.fields ∧ q.reportBitSizes = p.reportBitSizes

theorem SameReports.getReportBitSize (same : SameReports p q) :
    q.GetReportBitSize reportType reportID = p.GetReportBitSize reportType reportID := by
  unfold GetReportBitSize
  rw [same.2]

theorem parseGlobalItem_same {tag : Nat} {data : List UInt8}
    (taken : p.ParseGlobalItem tag data = some q) : SameReports p q := by
  unfold ParseGlobalItem at taken
  split at taken
  case h_8 =>
    split at taken
    · cases taken
    · obtain rfl := some.inj taken
      exact ⟨rfl, rfl⟩
  all_goals
    obtain rfl := some.inj taken
    exact ⟨rfl, rfl⟩

theorem parseLocalItem_same (tag : Nat) (data : List UInt8) :
    SameReports p (p.ParseLocalItem tag data) := by
  unfold ParseLocalItem
  split
  all_goals exact ⟨rfl, rfl⟩

theorem popCollection_same (taken : p.PopCollection = some q) : SameReports p q := by
  unfold PopCollection at taken
  split at taken
  · cases taken
  · obtain rfl := some.inj taken
    exact ⟨rfl, rfl⟩

/-- An item that is not one of data leaves the reports as they are; one of data adds its fields,
and the local items are forgotten. -/
theorem takeItem_cases (taken : p.takeItem item = some q) :
    (p.dataItem item = none ∧ SameReports p q) ∨
    ∃ reportType added, p.dataItem item = some ⟨reportType, p.globalState.reportID,
        ReadUnsignedItemData item.data, p.globalState.reportSize, p.globalState.reportCount⟩ ∧
      p.AddReportFields reportType (ReadUnsignedItemData item.data) = some added ∧
      SameReports added q := by
  unfold takeItem ParseShortItem at taken
  unfold dataItem
  split at taken
  · rename_i isMain
    rw [if_pos isMain]
    unfold ParseMainItem at taken
    rcases map_eq_some_iff.mp taken with ⟨result, parsed, rfl⟩
    cases isData : dataType item.tag with
    | some reportType =>
      rw [isData] at parsed
      exact .inr ⟨reportType, result, rfl, parsed, rfl, rfl⟩
    | none =>
      rw [isData] at parsed
      refine .inl ⟨rfl, ?_⟩
      dsimp only at parsed
      split at parsed
      · obtain rfl := some.inj parsed
        exact ⟨rfl, rfl⟩
      · have same := popCollection_same parsed
        exact ⟨same.1, same.2⟩
      · obtain rfl := some.inj parsed
        exact ⟨rfl, rfl⟩
  · rename_i isGlobal
    rw [isGlobal]
    exact .inl ⟨rfl, parseGlobalItem_same taken⟩
  · rename_i isLocal
    rw [isLocal, ← some.inj taken]
    exact .inl ⟨rfl, parseLocalItem_same _ _⟩
  · rename_i notMain _ _
    rw [if_neg notMain, ← some.inj taken]
    exact .inl ⟨rfl, rfl, rfl⟩

/-! ## The layout of all reports -/

/-- Each report is tiled by the items of data that were read so far. -/
def LaidOut (p : HIDReportDescriptorParser) (dataBefore : List DataItem) : Prop :=
  ∀ reportType reportID, ∃ groups, Laid (dataBefore.filter (DataItem.belongs reportType reportID))
      (p.fields.filter (USBHIDReportField.belongs reportType reportID)) (reportStart reportID)
      (p.GetReportBitSize reportType reportID) groups

theorem laidOut_initial : LaidOut {} [] := by
  intro reportType reportID
  refine ⟨[], .nil, rfl, rfl, rfl, ?_⟩
  show reportStart reportID < 2 ^ 32
  unfold reportStart
  split
  all_goals decide

section

variable (laid : LaidOut p dataBefore)

include laid

theorem LaidOut.congr (same : SameReports p q) :
    LaidOut q dataBefore := by
  intro reportType reportID
  rw [same.1, same.getReportBitSize]
  exact laid reportType reportID

theorem LaidOut.addReportFields
    (added : p.AddReportFields reportType flags = some q) :
    LaidOut q (dataBefore ++ [⟨reportType, p.globalState.reportID, flags,
      p.globalState.reportSize, p.globalState.reportCount⟩]) := by
  intro other otherID
  rcases addReportFields_cases added with
    ⟨fields, pieces, covers, pieceFields, ofReport, fields_eq, tiles, longer, fits, others⟩
  rcases laid other otherID with ⟨groups, before⟩
  rw [filter_append, fields_eq, filter_append]
  by_cases same : other = reportType ∧ otherID = p.globalState.reportID
  · rcases same with ⟨rfl, rfl⟩
    have kept : fields.filter (USBHIDReportField.belongs other p.globalState.reportID) = fields :=
      filter_eq_self.mpr ofReport
    refine ⟨groups ++ [pieces], ?_, ?_, ?_, ?_, fits⟩
    · refine rel_append before.covers ?_
      simpa [DataItem.belongs] using covers
    · rw [flatten_append, filterMap_append, before.fields_eq, kept]
      simp [pieceFields]
    · rw [flatten_append, map_append]
      exact before.tiles.append (by simpa using tiles)
    · rw [← longer, ← before.widths]
      simp [DataItem.belongs, DataItem.width, add_assoc]
  · have noItem : [(⟨reportType, p.globalState.reportID, flags, p.globalState.reportSize,
        p.globalState.reportCount⟩ : DataItem)].filter (DataItem.belongs other otherID) = [] := by
      have differs : ¬(reportType = other ∧ p.globalState.reportID = otherID) :=
        fun both => same ⟨both.1.symm, both.2.symm⟩
      simpa [DataItem.belongs] using differs
    have noField : fields.filter (USBHIDReportField.belongs other otherID) = [] := by
      rw [filter_eq_nil_iff]
      intro f isOne belongs
      have ofThis := ofReport f isOne
      simp only [USBHIDReportField.belongs, decide_eq_true_eq] at ofThis belongs
      exact same ⟨belongs.1.symm.trans ofThis.1, belongs.2.symm.trans ofThis.2⟩
    rw [noItem, noField, append_nil, append_nil, others other otherID same]
    exact ⟨groups, before⟩

theorem LaidOut.takeItem (taken : p.takeItem item = some q) :
    LaidOut q (dataBefore ++ (p.dataItem item).toList) := by
  rcases takeItem_cases taken with ⟨noData, same⟩ | ⟨reportType, added, isData, parsed, same⟩
  · rw [noData, toList_none, append_nil]
    exact laid.congr same
  · rw [isData]
    exact (laid.addReportFields parsed).congr same

theorem LaidOut.takeItems (taken : p.takeItems items = some q) :
    LaidOut q (dataBefore ++ p.dataItems items) := by
  induction items generalizing p dataBefore with
  | nil =>
    obtain rfl := some.inj taken
    simpa [dataItems] using laid
  | cons item rest ih =>
    rw [HIDReportDescriptorParser.takeItems] at taken
    rw [dataItems]
    cases next : p.takeItem item with
    | none =>
      rw [next] at taken
      cases taken
    | some middle =>
      rw [next] at taken
      have after := ih (laid.takeItem next) taken
      rw [append_assoc] at after
      exact after

end

theorem laidOut_of_parse {descriptor : List UInt8} (accepted : Parse (some descriptor) = some p) :
    LaidOut p (descriptorDataItems descriptor) := by
  unfold Parse at accepted
  simp only [parseItems_eq] at accepted
  unfold descriptorDataItems
  cases split : splitItems descriptor with
  | none => simp [split] at accepted
  | some items =>
    rw [split, bind_some] at accepted
    cases run : takeItems {} items with
    | none => simp [run] at accepted
    | some parsed =>
      simp only [run, ite_none_right_eq_some, some.injEq] at accepted
      rw [← accepted.2]
      exact laidOut_initial.takeItems run

/-- The fields and the constant items of one report, in the order of the descriptor, tile it from
its first bit to its recorded size. Offsets and sizes are numbers without bound here, so nothing
that the parser computed in 32 bits has wrapped. -/
theorem parse_tiles {descriptor : List UInt8} {parser : HIDReportDescriptorParser}
    (accepted : Parse (some descriptor) = some parser) (reportType : USBHIDReportType)
    (reportID : Nat) :
    ∃ groups : List (List Piece), Forall₂ Covers
        ((descriptorDataItems descriptor).filter (DataItem.belongs reportType reportID)) groups ∧
      groups.flatten.filterMap Piece.field? =
        parser.fields.filter (USBHIDReportField.belongs reportType reportID) ∧
      Tiles (if reportID ≠ 0 then 8 else 0) (groups.flatten.map Piece.extent)
        (parser.GetReportBitSize reportType reportID) ∧
      (groups.flatten.map Piece.extent).Pairwise Extent.Disjoint ∧
      (∀ e ∈ groups.flatten.map Piece.extent,
        e.finish ≤ parser.GetReportBitSize reportType reportID) ∧
      (if reportID ≠ 0 then 8 else 0) + (((descriptorDataItems descriptor).filter
          (DataItem.belongs reportType reportID)).map DataItem.width).sum =
        parser.GetReportBitSize reportType reportID ∧
      parser.GetReportBitSize reportType reportID < 2 ^ 32 := by
  rcases laidOut_of_parse accepted reportType reportID with ⟨groups, laid⟩
  refine ⟨groups, laid.covers, laid.fields_eq, laid.tiles, laid.tiles.disjoint, ?_, laid.widths,
    laid.fits⟩
  exact fun e isOne => (laid.tiles.within e isOne).2

/-- A byte of data, three bits of padding and five more bits under report ID 2. -/
def sampleDescriptor : List UInt8 :=
  [0x85, 2, 0x75, 8, 0x95, 1, 0x81, 2, 0x75, 1, 0x95, 3, 0x81, 1, 0x95, 5, 0x81, 2]

def sampleParser : HIDReportDescriptorParser := (Parse (some sampleDescriptor)).getD {}

theorem sample_accepted : Parse (some sampleDescriptor) = some sampleParser := by decide +kernel

theorem parse_tiles_sample : ∃ groups : List (List Piece),
    groups.flatten.filterMap Piece.field? = sampleParser.fields ∧
    Tiles 8 (groups.flatten.map Piece.extent) 24 := by
  have size : sampleParser.GetReportBitSize .Input 2 = 24 := by decide +kernel
  have all : sampleParser.fields.filter (USBHIDReportField.belongs .Input 2) =
      sampleParser.fields := by decide +kernel
  rcases parse_tiles sample_accepted .Input 2 with ⟨groups, _, fields, tiles, _⟩
  rw [size] at tiles
  exact ⟨groups, fields.trans all, tiles⟩

end PadOS.Usb

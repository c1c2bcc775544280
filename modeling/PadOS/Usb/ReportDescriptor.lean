import PadOS.Core.Tiling
import Mathlib.Algebra.Group.Int.Defs
import Mathlib.Algebra.GroupWithZero.Nat
import Mathlib.Data.List.Forall2
import Mathlib.Tactic.Common

/-!
# Report descriptors of HID devices

The parser takes a descriptor item by item. A main item of data puts `ReportCount` fields of
`ReportSize` bits behind what the report of its type and ID has so far, or as much padding when the
item is constant.
-/

namespace PadOS.Usb

open List

/-- `std::numeric_limits<size_t>::max()` -/
def sizeMax : Nat := 2 ^ 32 - 1

inductive USBHIDReportType
  | Input
  | Output
  | Feature
  deriving DecidableEq, Repr

def USB_HID_ITEM_LONG_PREFIX : UInt8 := 0xfe

@[match_pattern] abbrev USB_HID_ITEM_TYPE_MAIN : Nat := 0x00
@[match_pattern] abbrev USB_HID_ITEM_TYPE_GLOBAL : Nat := 0x01
@[match_pattern] abbrev USB_HID_ITEM_TYPE_LOCAL : Nat := 0x02

@[match_pattern] abbrev USB_HID_MAIN_ITEM_INPUT_TAG : Nat := 0x08
@[match_pattern] abbrev USB_HID_MAIN_ITEM_OUTPUT_TAG : Nat := 0x09
@[match_pattern] abbrev USB_HID_MAIN_ITEM_COLLECTION_TAG : Nat := 0x0a
@[match_pattern] abbrev USB_HID_MAIN_ITEM_FEATURE_TAG : Nat := 0x0b
@[match_pattern] abbrev USB_HID_MAIN_ITEM_END_COLLECTION_TAG : Nat := 0x0c

@[match_pattern] abbrev USB_HID_GLOBAL_ITEM_USAGE_PAGE_TAG : Nat := 0x00
@[match_pattern] abbrev USB_HID_GLOBAL_ITEM_LOGICAL_MINIMUM_TAG : Nat := 0x01
@[match_pattern] abbrev USB_HID_GLOBAL_ITEM_LOGICAL_MAXIMUM_TAG : Nat := 0x02
@[match_pattern] abbrev USB_HID_GLOBAL_ITEM_REPORT_SIZE_TAG : Nat := 0x07
@[match_pattern] abbrev USB_HID_GLOBAL_ITEM_REPORT_ID_TAG : Nat := 0x08
@[match_pattern] abbrev USB_HID_GLOBAL_ITEM_REPORT_COUNT_TAG : Nat := 0x09
@[match_pattern] abbrev USB_HID_GLOBAL_ITEM_PUSH_TAG : Nat := 0x0a
@[match_pattern] abbrev USB_HID_GLOBAL_ITEM_POP_TAG : Nat := 0x0b

@[match_pattern] abbrev USB_HID_LOCAL_ITEM_USAGE_TAG : Nat := 0x00
@[match_pattern] abbrev USB_HID_LOCAL_ITEM_USAGE_MINIMUM_TAG : Nat := 0x01
@[match_pattern] abbrev USB_HID_LOCAL_ITEM_USAGE_MAXIMUM_TAG : Nat := 0x02

def USB_HID_MAIN_ITEM_CONSTANT : Nat := 0x0001

def USB_HID_COLLECTION_APPLICATION : Nat := 0x01

structure USBHIDReportField where
  reportType : USBHIDReportType
  reportID : Nat
  usagePage : Nat
  usage : Nat
  fullUsage : Nat
  applicationUsagePage : Nat
  applicationUsage : Nat
  bitOffset : Nat
  bitSize : Nat
  logicalMinimum : Int
  logicalMaximum : Int
  flags : Nat
  deriving DecidableEq, Repr

structure USBHIDReportBitSize where
  reportType : USBHIDReportType
  reportID : Nat
  bitSize : Nat
  deriving DecidableEq, Repr

structure HIDGlobalState where
  usagePage : Nat := 0
  logicalMinimum : Int := 0
  logicalMaximum : Int := 0
  reportSize : Nat := 0
  reportCount : Nat := 0
  reportID : Nat := 0
  deriving DecidableEq, Repr

/-- A bound is `none` while its `Has` flag is not set. -/
structure HIDLocalState where
  usages : List Nat := []
  usageMinimum : Option Nat := none
  usageMaximum : Option Nat := none
  deriving DecidableEq, Repr

structure HIDCollectionState where
  type : Nat := 0
  usagePage : Nat := 0
  usage : Nat := 0
  deriving DecidableEq, Repr

def ReadUnsignedItemData : List UInt8 → Nat
  | [] => 0
  | byte :: rest => byte.toNat + 2 ^ 8 * ReadUnsignedItemData rest

/-- The low bits of a value in two's complement. -/
def signed (bits value : Nat) : Int :=
  let low := value % 2 ^ bits
  if low < 2 ^ (bits - 1) then low else low - 2 ^ bits

def ReadSignedItemData (data : List UInt8) : Int :=
  let value := ReadUnsignedItemData data
  if data.length = 1 then signed 8 value
  else if data.length = 2 then signed 16 value
  else signed 32 value

def GetShortItemDataSize (itemPrefix : UInt8) : Nat :=
  let sizeCode := itemPrefix.toNat % 4
  if sizeCode = 3 then 4 else sizeCode

def MakeFullUsage (usagePage usage : Nat) : Nat :=
  if usage > 0xffff then usage else usagePage * 2 ^ 16 + usage

def AddWithOverflowCheck (lhs rhs : Nat) : Option Nat :=
  if lhs > sizeMax - rhs then none else some ((lhs + rhs) % 2 ^ 32)

def MultiplyWithOverflowCheck (lhs rhs : Nat) : Option Nat :=
  if lhs ≠ 0 ∧ rhs > sizeMax / lhs then none else some (lhs * rhs % 2 ^ 32)

theorem addWithOverflowCheck_eq {lhs rhs sum : Nat} (small : rhs < 2 ^ 32)
    (fits : AddWithOverflowCheck lhs rhs = some sum) : sum = lhs + rhs ∧ sum < 2 ^ 32 := by
  unfold AddWithOverflowCheck sizeMax at fits
  split at fits
  · cases fits
  · have same := Option.some.inj fits
    omega

theorem multiplyWithOverflowCheck_eq {lhs rhs product : Nat}
    (fits : MultiplyWithOverflowCheck lhs rhs = some product) :
    product = lhs * rhs ∧ product < 2 ^ 32 := by
  unfold MultiplyWithOverflowCheck at fits
  split at fits
  · cases fits
  · rename_i inside
    have same := Option.some.inj fits
    have small : lhs * rhs ≤ sizeMax := by
      rcases Nat.eq_zero_or_pos lhs with rfl | positive
      · simp
      · have bound : rhs ≤ sizeMax / lhs := by
          by_contra above
          exact inside ⟨Nat.ne_of_gt positive, Nat.lt_of_not_le above⟩
        rw [mul_comm]
        exact (Nat.le_div_iff_mul_le positive).mp bound
    unfold sizeMax at small
    omega

/-- The last entry of `m_GlobalStack` and of `m_CollectionStack` stands at the head. -/
structure HIDReportDescriptorParser where
  globalState : HIDGlobalState := {}
  localState : HIDLocalState := {}
  globalStack : List HIDGlobalState := []
  collectionStack : List HIDCollectionState := []
  fields : List USBHIDReportField := []
  reportBitSizes : List USBHIDReportBitSize := []
  deriving DecidableEq, Repr

namespace HIDReportDescriptorParser

variable (p : HIDReportDescriptorParser)

def GetUsage (fieldIndex : Nat) : Nat :=
  match p.localState.usages.getLast? with
  | some last => p.localState.usages[fieldIndex]?.getD last
  | none =>
    match p.localState.usageMinimum, p.localState.usageMaximum with
    | some minimum, some maximum =>
      if minimum ≤ maximum then min ((minimum + fieldIndex) % 2 ^ 32) maximum else 0
    | _, _ => 0

def GetApplicationCollection : HIDCollectionState :=
  (p.collectionStack.find? fun collection =>
    collection.type = USB_HID_COLLECTION_APPLICATION).getD {}

variable (reportType : USBHIDReportType)

def sameReport (reportID : Nat) (entry : USBHIDReportBitSize) :
    Bool :=
  entry.reportType = reportType ∧ entry.reportID = reportID

/-- Where the first field of a report begins: behind the byte of the report ID if there is one. -/
def reportStart (reportID : Nat) : Nat := if reportID ≠ 0 then 8 else 0

def GetReportBitSize (reportID : Nat) : Nat :=
  match p.reportBitSizes.find? (sameReport reportType reportID) with
  | some entry => entry.bitSize
  | none => reportStart reportID

def setBitSize (reportType : USBHIDReportType) (reportID bitSize : Nat) :
    List USBHIDReportBitSize → List USBHIDReportBitSize
  | [] => [⟨reportType, reportID, bitSize⟩]
  | entry :: rest =>
    if sameReport reportType reportID entry then { entry with bitSize := bitSize } :: rest
    else entry :: setBitSize reportType reportID bitSize rest

def SetReportBitSize (reportID bitSize : Nat) : HIDReportDescriptorParser :=
  { p with reportBitSizes := setBitSize reportType reportID bitSize p.reportBitSizes }

/-- One round of the loop in `AddReportFields`. -/
def makeField (flags : Nat)
    (reportBitOffset fieldIndex : Nat) : Option USBHIDReportField := do
  let fieldBitOffset ← MultiplyWithOverflowCheck fieldIndex p.globalState.reportSize
  let fieldBitOffset ← AddWithOverflowCheck reportBitOffset fieldBitOffset
  let fullUsage := p.GetUsage fieldIndex
  let applicationCollection := p.GetApplicationCollection
  return {
    reportType := reportType
    reportID := p.globalState.reportID
    usagePage := fullUsage / 2 ^ 16
    usage := fullUsage % 2 ^ 16
    fullUsage := fullUsage
    applicationUsagePage := applicationCollection.usagePage
    applicationUsage := applicationCollection.usage
    bitOffset := fieldBitOffset
    bitSize := p.globalState.reportSize
    logicalMinimum := p.globalState.logicalMinimum
    logicalMaximum := p.globalState.logicalMaximum
    flags := flags }

def isConstant (flags : Nat) : Bool := flags &&& USB_HID_MAIN_ITEM_CONSTANT ≠ 0

def addedFields (flags reportBitOffset : Nat) : Option (List USBHIDReportField) :=
  if isConstant flags then some []
  else
    (range p.globalState.reportCount).mapM (p.makeField reportType flags reportBitOffset)

def AddReportFields
    (flags : Nat) : Option HIDReportDescriptorParser := do
  let fieldsBitSize ←
    MultiplyWithOverflowCheck p.globalState.reportSize p.globalState.reportCount
  let reportID := p.globalState.reportID
  let reportBitOffset := p.GetReportBitSize reportType reportID
  let nextReportBitSize ← AddWithOverflowCheck reportBitOffset fieldsBitSize
  let added ← p.addedFields reportType flags reportBitOffset
  return { p with fields := p.fields ++ added }.SetReportBitSize reportType reportID
    nextReportBitSize

def PushCollection (collectionType : Nat) :
    HIDReportDescriptorParser :=
  let fullUsage := p.GetUsage 0
  { p with
    collectionStack :=
      ⟨collectionType % 2 ^ 8, fullUsage / 2 ^ 16, fullUsage % 2 ^ 16⟩ :: p.collectionStack }

def PopCollection : Option HIDReportDescriptorParser :=
  match p.collectionStack with
  | [] => none
  | _ :: rest => some { p with collectionStack := rest }

def clearLocalState : HIDReportDescriptorParser :=
  { p with localState := {} }

/-- The type of report that a main item of data belongs to. -/
def dataType (itemTag : Nat) : Option USBHIDReportType :=
  match itemTag with
  | USB_HID_MAIN_ITEM_INPUT_TAG => some .Input
  | USB_HID_MAIN_ITEM_OUTPUT_TAG => some .Output
  | USB_HID_MAIN_ITEM_FEATURE_TAG => some .Feature
  | _ => none

def ParseMainItem (itemTag itemData : Nat) :
    Option HIDReportDescriptorParser :=
  let result :=
    match dataType itemTag with
    | some reportType => p.AddReportFields reportType itemData
    | none =>
      match itemTag with
      | USB_HID_MAIN_ITEM_COLLECTION_TAG => some (p.PushCollection itemData)
      | USB_HID_MAIN_ITEM_END_COLLECTION_TAG => p.PopCollection
      | _ => some p
  result.map clearLocalState

def ParseGlobalItem (itemTag : Nat) (itemData : List UInt8) :
    Option HIDReportDescriptorParser :=
  let value := ReadUnsignedItemData itemData
  let g := p.globalState
  match itemTag with
  | USB_HID_GLOBAL_ITEM_USAGE_PAGE_TAG =>
    some { p with globalState := { g with usagePage := value % 2 ^ 16 } }
  | USB_HID_GLOBAL_ITEM_LOGICAL_MINIMUM_TAG =>
    some { p with globalState := { g with logicalMinimum := ReadSignedItemData itemData } }
  | USB_HID_GLOBAL_ITEM_LOGICAL_MAXIMUM_TAG =>
    some { p with globalState := { g with logicalMaximum := ReadSignedItemData itemData } }
  | USB_HID_GLOBAL_ITEM_REPORT_SIZE_TAG =>
    some { p with globalState := { g with reportSize := value } }
  | USB_HID_GLOBAL_ITEM_REPORT_ID_TAG =>
    some { p with globalState := { g with reportID := value % 2 ^ 8 } }
  | USB_HID_GLOBAL_ITEM_REPORT_COUNT_TAG =>
    some { p with globalState := { g with reportCount := value } }
  | USB_HID_GLOBAL_ITEM_PUSH_TAG =>
    some { p with globalStack := g :: p.globalStack }
  | USB_HID_GLOBAL_ITEM_POP_TAG =>
    match p.globalStack with
    | [] => none
    | last :: rest => some { p with globalState := last, globalStack := rest }
  | _ => some p

def ParseLocalItem (itemTag : Nat) (itemData : List UInt8) :
    HIDReportDescriptorParser :=
  let usage := MakeFullUsage p.globalState.usagePage (ReadUnsignedItemData itemData)
  let l := p.localState
  match itemTag with
  | USB_HID_LOCAL_ITEM_USAGE_TAG =>
    { p with localState := { l with usages := l.usages ++ [usage] } }
  | USB_HID_LOCAL_ITEM_USAGE_MINIMUM_TAG =>
    { p with localState := { l with usageMinimum := some usage } }
  | USB_HID_LOCAL_ITEM_USAGE_MAXIMUM_TAG =>
    { p with localState := { l with usageMaximum := some usage } }
  | _ => p

def ParseShortItem (itemType itemTag : Nat)
    (itemData : List UInt8) : Option HIDReportDescriptorParser :=
  match itemType with
  | USB_HID_ITEM_TYPE_MAIN => p.ParseMainItem itemTag (ReadUnsignedItemData itemData)
  | USB_HID_ITEM_TYPE_GLOBAL => p.ParseGlobalItem itemTag itemData
  | USB_HID_ITEM_TYPE_LOCAL => some (p.ParseLocalItem itemTag itemData)
  | _ => some p

/-- The loop of `Parse`, on the bytes from `descriptorOffset` on. -/
def parseItems (p : HIDReportDescriptorParser) : List UInt8 → Option HIDReportDescriptorParser
  | [] => some p
  | itemPrefix :: rest =>
    if itemPrefix = USB_HID_ITEM_LONG_PREFIX then
      match rest with
      | itemSize :: _ :: behind =>
        if itemSize.toNat > behind.length then none
        else p.parseItems (behind.drop itemSize.toNat)
      | _ => none
    else if GetShortItemDataSize itemPrefix > rest.length then none
    else
      match p.ParseShortItem (itemPrefix.toNat / 4 % 4) (itemPrefix.toNat / 16)
          (rest.take (GetShortItemDataSize itemPrefix)) with
      | none => none
      | some p => p.parseItems (rest.drop (GetShortItemDataSize itemPrefix))
  termination_by bytes => bytes.length
  decreasing_by
    · simp only [length_drop, length_cons]
      omega
    · simp only [length_drop, length_cons]
      omega

/-- A descriptor that is `none` is a null pointer with a length. -/
def Parse : Option (List UInt8) → Option HIDReportDescriptorParser
  | none => none
  | some descriptor =>
    match parseItems {} descriptor with
    | none => none
    | some p => if p.collectionStack = [] then some p else none

end HIDReportDescriptorParser

end PadOS.Usb

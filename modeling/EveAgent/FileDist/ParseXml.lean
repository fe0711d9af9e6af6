import EveAgent.Attempt
import EveAgent.XmlTree
import EveAgent.FileDist.RecvConfig

namespace EveAgent.FileDist.ParseXml

open EveAgent.XmlTree
open EveAgent.FileDist.Recv (stricmp)

section Source

def gpcPackageID : Text := "PackageID".toList
def gpcPackName : Text := "PackageName".toList
def gpcPackDesc : Text := "PackageDescription".toList
def gpcPacCreateDt : Text := "PackageCreatedDateTime".toList
def gpPkgShed : Text := "PackageScheduledDateTime".toList
def gpcInstaShed : Text := "InstallationShedule".toList
def gpcShed : Text := "schedule".toList
def gpcdate : Text := "date".toList
def gpcmonth : Text := "month".toList
def gpcyear : Text := "year".toList
def gpchr : Text := "hour".toList
def gpcmin : Text := "min".toList
def gpcsec : Text := "sec".toList
def gpccomm : Text := "InstallationCommand".toList
def gppath : Text := "InstallationPath".toList
def gpband : Text := "BandwidthConsumption".toList
def gpdistPts : Text := "DistPoints".toList
def gpdiststartPt : Text := "DestStartPoint".toList
def gpactive : Text := "Active".toList
def gpiplist : Text := "IPList".toList
def gpip : Text := "IP".toList

def immediate : Text := "Immediate".toList
def datetime : Text := "Datetime".toList
def continuous : Text := "Continuous".toList
def stop : Text := "Stop".toList

/-- A number that does not fit an `int` leaves the field unspecified. -/
structure StFDDate where
  date : Option Int16 := some 0
  month : Option Int16 := some 0
  year : Option Int16 := some 0
  hr : Option Int16 := some 0
  min : Option Int16 := some 0
  sec : Option Int16 := some 0
  flag : Int16 := 0

/-- `entry` is the node of which the text was copied to `IP`. -/
structure IPList where
  IP : Text
  entry : Node

/-- `destIp` without the element at the head, which has no address. -/
structure StConfigInfo where
  sourceIp : Option Text := none
  destIp : List IPList := []
  iactive : Int16 := 0

structure FileDistInfoStruct where
  PackageIdentification : Option Text := none
  PackageName : Option Text := none
  Install_Schedule_DateTime : StFDDate := {}
  Distribution_schedule : StFDDate := { flag := 1 }
  InstallationCommand : Option Text := none
  InstallationPath : Option Text := none
  BandwidthConsumption : Option Int16 := some 0
  config : StConfigInfo := {}
  pcPackageBuffer : Option Text := none
  isize : Nat := 0

abbrev Parse := Attempt FileDistInfoStruct

/-- The node that the loop of `MoveNextNode` stops at. -/
def following : List Node → List Node
  | [] => []
  | [last] => [last]
  | node :: next :: siblings =>
    if node.isElement then node :: next :: siblings else following (next :: siblings)

/-- `MoveNextNode`; the node itself must not be NULL. -/
def moveNextNode : List Node → Option (List Node)
  | [] => none
  | _ :: siblings => some (following siblings)

/-- `currentNode->name` -/
def nameOf (current : List Node) : Option Text := current.head?.bind Node.name

/-- `currentNode->content` -/
def contentOf (current : List Node) : Option Text := current.head?.bind Node.content

def number (text : Text) : Option Int16 := (atoi text).map Int16.ofInt

def copied (tag : Text) (store : FileDistInfoStruct → Text → FileDistInfoStruct)
    (pstFDInfo : FileDistInfoStruct) (current : List Node) : Parse FileDistInfoStruct := do
  let name ← need (nameOf current)
  let children ← need (current.head?.map Node.childs)
  if stricmp name tag && !children.isEmpty then
    let content ← need (contentOf children)
    return store pstFDInfo content
  else
    refuse pstFDInfo

def passed (tag : Text) (pstFDInfo : FileDistInfoStruct) (current : List Node) :
    Parse FileDistInfoStruct := do
  let name ← need (nameOf current)
  if stricmp name tag then return pstFDInfo else refuse pstFDInfo

/-- One of the elements of a date; one with another name is skipped. -/
def datePart (tag : Text) (store : StFDDate → Option Int16 → StFDDate) (date : StFDDate)
    (current : List Node) : Parse StFDDate := do
  let name ← need (nameOf current)
  if stricmp name tag then
    let children ← need (current.head?.map Node.childs)
    let content ← need (contentOf children)
    return store date (number content)
  else
    return date

def dateParts : List (Text × (StFDDate → Option Int16 → StFDDate)) → StFDDate → List Node →
    Parse StFDDate
  | [], date, _ => return date
  | (tag, store) :: parts, date, current => do
    let current ← need (moveNextNode current)
    let date ← datePart tag store date current
    dateParts parts date current

def laterParts : List (Text × (StFDDate → Option Int16 → StFDDate)) :=
  [(gpcmonth, fun date value => { date with month := value }),
    (gpcyear, fun date value => { date with year := value }),
    (gpchr, fun date value => { date with hr := value }),
    (gpcmin, fun date value => { date with min := value }),
    (gpcsec, fun date value => { date with sec := value })]

def schedule (date : StFDDate) (current : List Node) : Parse StFDDate := do
  let node ← need current.head?
  let property ← need node.properties.head?
  if stricmp property.name gpcShed then
    let content ← need property.content
    let date := if stricmp content immediate then { date with flag := 1 } else date
    if stricmp content datetime then
      let date ← datePart gpcdate (fun date value => { date with date := value })
        { date with flag := 0 } node.childs
      dateParts laterParts date node.childs
    else
      return date
  else
    return date

def scheduled (tag : Text) (date : FileDistInfoStruct → StFDDate)
    (store : FileDistInfoStruct → StFDDate → FileDistInfoStruct)
    (pstFDInfo : FileDistInfoStruct) (current : List Node) : Parse FileDistInfoStruct := do
  let name ← need (nameOf current)
  if stricmp name tag then
    let read ← schedule (date pstFDInfo) current
    return store pstFDInfo read
  else
    refuse pstFDInfo

def bandwidth (pstFDInfo : FileDistInfoStruct) (current : List Node) :
    Parse FileDistInfoStruct := do
  let name ← need (nameOf current)
  if stricmp name gpband then
    let children ← need (current.head?.map Node.childs)
    let content ← need (contentOf children)
    return { pstFDInfo with BandwidthConsumption := number content }
  else
    refuse pstFDInfo

theorem following_length (siblings : List Node) :
    (following siblings).length ≤ siblings.length := by
  fun_induction following siblings with
  | case1 => exact le_refl _
  | case2 last => exact le_refl _
  | case3 node next siblings element => exact le_refl _
  | case4 node next siblings element ih =>
    calc
      _ ≤ (next :: siblings).length := ih
      _ ≤ _ := Nat.le_succ _

/-- `strcpy` of the text of a node to a new element at the end of the list. -/
def append (tempList : List IPList) (current : Node) : Parse (List IPList) := do
  let ip ← need (contentOf current.childs)
  return tempList ++ [⟨ip, current⟩]

/-- The loop over the addresses: behind the own one the next node is taken unseen. -/
def addresses (acSysIp : Text) (tempList : List IPList) : List Node → Parse (List IPList)
  | [] => .error .fault
  | node :: siblings => do
    let name ← need node.name
    if stricmp name gpip then
      let content ← need (contentOf node.childs)
      if stricmp content acSysIp then
        match _own : following siblings with
        | [] => return tempList
        | next :: behind =>
          let tempList ← append tempList next
          if (following behind).isEmpty then return tempList
          else addresses acSysIp tempList (following behind)
      else
        let tempList ← append tempList node
        if (following siblings).isEmpty then return tempList
        else addresses acSysIp tempList (following siblings)
    else
      return tempList
  termination_by current => current.length
  decreasing_by
  · have moved := following_length siblings
    have again := following_length behind
    simp only [_own, List.length_cons] at moved ⊢
    omega
  · have moved := following_length siblings
    simp only [List.length_cons]
    omega

/-- The property behind the address of a start point. -/
def readActive (node : Node) (iactive : Int16) : Parse Int16 := do
  let property ← need node.properties[1]?
  if stricmp property.name gpactive then
    let content ← need property.content
    let iactive := if stricmp content continuous then 1 else iactive
    return if stricmp content stop then 0 else iactive
  else
    return iactive

/-- What is done at the start point of this host. -/
def startPoint (acSysIp : Text) (pstFDInfo : FileDistInfoStruct) (node : Node) (sourceIp : Text) :
    Parse FileDistInfoStruct := do
  let iactive ← readActive node pstFDInfo.config.iactive
  let list ← need node.childs.head?
  let name ← need list.name
  if stricmp name gpiplist then
    let destIp ← addresses acSysIp pstFDInfo.config.destIp list.childs
    return { pstFDInfo with config := ⟨some sourceIp, destIp, iactive⟩ }
  else
    refuse { pstFDInfo with config := ⟨some sourceIp, pstFDInfo.config.destIp, iactive⟩ }

def startPoints (acSysIp : Text) (pstFDInfo : FileDistInfoStruct) :
    List Node → Parse FileDistInfoStruct
  | [] => .error .fault
  | node :: siblings => do
    let name ← need node.name
    if stricmp name gpdiststartPt then
      let property ← need node.properties.head?
      let content ← need property.content
      if stricmp content acSysIp then
        startPoint acSysIp pstFDInfo node content
      else if (following siblings).isEmpty then
        refuse pstFDInfo
      else
        startPoints acSysIp pstFDInfo (following siblings)
    else
      refuse pstFDInfo
  termination_by current => current.length
  decreasing_by
    have moved := following_length siblings
    simp only [List.length_cons]
    omega

def distPoints (acSysIp : Text) (pstFDInfo : FileDistInfoStruct) (current : List Node) :
    Parse FileDistInfoStruct := do
  let name ← need (nameOf current)
  if stricmp name gpdistPts then
    let children ← need (current.head?.map Node.childs)
    startPoints acSysIp pstFDInfo children
  else
    refuse pstFDInfo

/-- `FD_ParseXMLData` of the text, of which `doc` is the root that `xmlParseMemory` finds. A result
stands for `NASC_SUCCESS`, a refusal for `NASC_FAILURE`. -/
def FD_ParseXMLData (acSysIp pcBuffer : Text) (doc : Option Node) (pstFDInfo : FileDistInfoStruct) :
    Parse FileDistInfoStruct := do
  let some rootNode := doc | refuse pstFDInfo
  let current := rootNode.childs
  let pstFDInfo ← copied gpcPackageID
    (fun info text => { info with PackageIdentification := some text })
    pstFDInfo current
  let current ← need (moveNextNode current)
  let pstFDInfo ← copied gpcPackName (fun info text => { info with PackageName := some text })
    pstFDInfo current
  let current ← need (moveNextNode current)
  let pstFDInfo ← passed gpcPackDesc pstFDInfo current
  let current ← need (moveNextNode current)
  let pstFDInfo ← passed gpcPacCreateDt pstFDInfo current
  let current ← need (moveNextNode current)
  let pstFDInfo ← scheduled gpPkgShed FileDistInfoStruct.Distribution_schedule
    (fun info date => { info with Distribution_schedule := date }) pstFDInfo current
  let current ← need (moveNextNode current)
  let pstFDInfo ← scheduled gpcInstaShed FileDistInfoStruct.Install_Schedule_DateTime
    (fun info date => { info with Install_Schedule_DateTime := date }) pstFDInfo current
  let current ← need (moveNextNode current)
  let pstFDInfo ← copied gpccomm (fun info text => { info with InstallationCommand := some text })
    pstFDInfo current
  let current ← need (moveNextNode current)
  let pstFDInfo ← copied gppath (fun info text => { info with InstallationPath := some text })
    pstFDInfo current
  let current ← need (moveNextNode current)
  let pstFDInfo ← bandwidth pstFDInfo current
  let current ← need (moveNextNode current)
  let pstFDInfo ← distPoints acSysIp pstFDInfo current
  return { pstFDInfo with pcPackageBuffer := some pcBuffer, isize := pcBuffer.length }

end Source

section Property

def isNamed (tag : Text) (node : Node) : Bool :=
  node.isElement && node.name.any fun name => stricmp name tag

def packageParts : List Text :=
  [gpcPackageID, gpcPackName, gpcPackDesc, gpcPacCreateDt, gpPkgShed, gpcInstaShed, gpccomm, gppath,
    gpband, gpdistPts]

/-- The elements of a package occur below the root in the required order. -/
def InOrder (rootNode : Node) : Prop :=
  ∃ parts, parts.Sublist rootNode.childs ∧
    List.Forall₂ (fun tag node => isNamed tag node = true) packageParts parts

def namesHost (acSysIp : Text) (node : Node) : Bool :=
  node.properties.head?.any fun property => property.content.any fun content =>
    stricmp content acSysIp

/-- The first start point that names this host. -/
def hostStart (acSysIp : Text) (rootNode : Node) : Option Node :=
  (rootNode.childs.find? (isNamed gpdistPts)).bind fun points =>
    points.childs.find? fun node => isNamed gpdiststartPt node && namesHost acSysIp node

def isOwn (acSysIp : Text) (node : Node) : Bool :=
  node.text.any fun content => stricmp content acSysIp

/-- The entries among these nodes other than the own address. -/
def entriesOf (acSysIp : Text) (nodes : List Node) : List Node :=
  nodes.filter fun node => isNamed gpip node && !isOwn acSysIp node

def listEntries (acSysIp : Text) (nodes : List Node) : List Node :=
  (nodes.filter (isNamed gpiplist)).flatMap fun list => entriesOf acSysIp list.childs

/-- The list of destinations holds these entries, each of at most 15 characters. -/
def Holds (entries : List Node) (destIp : List IPList) : Prop :=
  destIp.map IPList.entry = entries ∧
    ∀ destination ∈ destIp,
      destination.entry.text = some destination.IP ∧ destination.IP.length ≤ 15

/-- What a successful parse of this document has to leave. -/
def Parsed (acSysIp : Text) (rootNode : Node) (pstFDInfo : FileDistInfoStruct) : Prop :=
  InOrder rootNode ∧ ∃ start, hostStart acSysIp rootNode = some start ∧
    Holds (listEntries acSysIp start.childs) pstFDInfo.config.destIp

/-- The parser returns, and a success is one of this document. -/
def ParsesRight (acSysIp pcBuffer : Text) (doc : Option Node) : Prop :=
  Meets (fun pstFDInfo => ∀ rootNode, doc = some rootNode → Parsed acSysIp rootNode pstFDInfo)
    (fun _ => True) (FD_ParseXMLData acSysIp pcBuffer doc {})

end Property

section Condition

/-- The nodes of a tail of siblings that the parser visits: the elements, and the last node. -/
def visitedTail : List Node → List Node
  | [] => []
  | [last] => [last]
  | node :: next :: siblings =>
    if node.isElement then node :: visitedTail (next :: siblings)
    else visitedTail (next :: siblings)

/-- The first node, whatever it is, and those that the parser visits behind it. -/
def visited : List Node → List Node
  | [] => []
  | node :: siblings => node :: visitedTail siblings

/-- What the parser reads of an element that it goes through. -/
inductive Part where
  | copied
  | passed
  | scheduled
  | number

/-- The elements of a date are there for as long as the walk over them reads them. -/
def DateReadable : List Text → List Node → Prop
  | [], _ => True
  | _ :: _, [] => False
  | tag :: tags, node :: nodes =>
    (∃ name, node.name = some name ∧ (stricmp name tag = true → node.text.isSome)) ∧
      DateReadable tags nodes

def dateTags : List Text := [gpcdate, gpcmonth, gpcyear, gpchr, gpcmin, gpcsec]

/-- The element of a schedule has a property, with a value when it is the schedule, and the elements
of a date when the value is a date. -/
def ScheduleReadable (node : Node) : Prop :=
  ∃ property, node.properties.head? = some property ∧
    (stricmp property.name gpcShed = true → ∃ content, property.content = some content ∧
      (stricmp content datetime = true → DateReadable dateTags (visited node.childs)))

def Part.Accepts (part : Part) (tag : Text) (node : Node) : Prop :=
  (∃ name, node.name = some name ∧ stricmp name tag = true) ∧ (part = .copied → node.childs ≠ [])

def Part.Readable (node : Node) : Part → Prop
  | .copied => node.text.isSome
  | .passed => True
  | .scheduled => ScheduleReadable node
  | .number => node.text.isSome

def headerParts : List (Part × Text) :=
  [(.copied, gpcPackageID), (.copied, gpcPackName), (.passed, gpcPackDesc),
    (.passed, gpcPacCreateDt), (.scheduled, gpPkgShed), (.scheduled, gpcInstaShed),
    (.copied, gpccomm), (.copied, gppath), (.number, gpband)]

/-- Each node that the order of the elements leads to is there with what is read of it, and the one
behind the elements of the header is as `last` has it. -/
def HeaderReadable (last : Node → Prop) : List (Part × Text) → List Node → Prop
  | _, [] => False
  | [], node :: _ => last node
  | (part, tag) :: parts, node :: nodes =>
    node.name.isSome ∧
      (part.Accepts tag node → part.Readable node ∧ HeaderReadable last parts nodes)

/-- From the first on, the nodes are entries with a text of at most 15 characters. Behind the own
address comes an entry with another one, or nothing. No entry of another address comes behind a node
that is none. -/
def AddressesFine (acSysIp : Text) : List Node → Prop
  | [] => True
  | node :: nodes => ∃ name, node.name = some name ∧
    if stricmp name gpip then ∃ content, node.text = some content ∧
      if stricmp content acSysIp then
        match nodes with
        | [] => True
        | next :: nodes => isNamed gpip next = true ∧
          (∃ ip, next.text = some ip ∧ stricmp ip acSysIp = false ∧ ip.length ≤ 15) ∧
          AddressesFine acSysIp nodes
      else content.length ≤ 15 ∧ AddressesFine acSysIp nodes
    else entriesOf acSysIp nodes = []

/-- The start point has two properties, the second with a value when it is `Active`, and a first
child. When that is a list of addresses it has nodes, which are fine, and the other lists have none
but the own address. -/
def StartFine (acSysIp : Text) (node : Node) : Prop :=
  (∃ active, node.properties[1]? = some active ∧
    (stricmp active.name gpactive = true → active.content.isSome)) ∧
  ∃ list siblings name, node.childs = list :: siblings ∧ list.name = some name ∧
    (stricmp name gpiplist = true → list.childs ≠ [] ∧
      AddressesFine acSysIp (visited list.childs) ∧ listEntries acSysIp siblings = [])

/-- The start points up to the one of this host have a property with a value, and that one is as
`own` has it. -/
def StartsReadable (acSysIp : Text) (own : Node → Prop) : List Node → Prop
  | [] => True
  | node :: nodes => ∃ name, node.name = some name ∧
    (stricmp name gpdiststartPt = true → ∃ property content, node.properties.head? = some property ∧
      property.content = some content ∧
      if stricmp content acSysIp then own node else StartsReadable acSysIp own nodes)

def PointsReadable (acSysIp : Text) (own : Node → Prop) (node : Node) : Prop :=
  ∃ name, node.name = some name ∧ (stricmp name gpdistPts = true →
    node.childs ≠ [] ∧ StartsReadable acSysIp own (visited node.childs))

/-- Nothing that the walk over this document reads is missing, and the list of addresses of the own
start point is fine. -/
def Complete (acSysIp : Text) (rootNode : Node) : Prop :=
  HeaderReadable (PointsReadable acSysIp (StartFine acSysIp)) headerParts (visited rootNode.childs)

end Condition

section Visited

theorem visited_following (siblings : List Node) :
    visited (following siblings) = visitedTail siblings := by
  fun_induction following siblings with
  | case1 => rfl
  | case2 last => rfl
  | case3 node next siblings element => simp [visited, visitedTail, element]
  | case4 node next siblings element ih => rw [ih, visitedTail, if_neg element]

theorem following_nil {siblings : List Node} : following siblings = [] ↔ siblings = [] := by
  fun_induction following siblings with
  | case1 => rfl
  | case2 last => simp
  | case3 node next siblings element => simp
  | case4 node next siblings element ih => rw [ih]; simp

theorem visitedTail_sublist (siblings : List Node) : (visitedTail siblings).Sublist siblings := by
  fun_induction visitedTail siblings with
  | case1 => exact List.Sublist.refl _
  | case2 last => exact List.Sublist.refl _
  | case3 node next siblings element ih => exact ih.cons_cons node
  | case4 node next siblings element ih => exact ih.cons node

theorem visited_sublist (nodes : List Node) : (visited nodes).Sublist nodes := by
  cases nodes with
  | nil => exact List.Sublist.refl _
  | cons node siblings => exact (visitedTail_sublist siblings).cons_cons node

variable {select : Node → Bool}

theorem filter_visitedTail (elements : ∀ node, select node = true → node.isElement = true)
    (siblings : List Node) : (visitedTail siblings).filter select = siblings.filter select := by
  fun_induction visitedTail siblings with
  | case1 => rfl
  | case2 last => rfl
  | case3 node next siblings element ih => rw [List.filter_cons, List.filter_cons, ih]
  | case4 node next siblings element ih =>
    have skipped : ¬ select node = true := fun selected => element (elements node selected)
    rw [ih, List.filter_cons_of_neg skipped]

theorem filter_visited (elements : ∀ node, select node = true → node.isElement = true)
    (nodes : List Node) : (visited nodes).filter select = nodes.filter select := by
  cases nodes with
  | nil => rfl
  | cons node siblings =>
    rw [visited, List.filter_cons, List.filter_cons, filter_visitedTail elements]

theorem find_visited (elements : ∀ node, select node = true → node.isElement = true)
    (nodes : List Node) : nodes.find? select = (visited nodes).find? select := by
  rw [← List.head?_filter, ← List.head?_filter, filter_visited elements]

theorem visitedTail_element {siblings before after : List Node} {node : Node}
    (parts : visitedTail siblings = before ++ node :: after) (further : after ≠ []) :
    node.isElement = true := by
  fun_induction visitedTail siblings generalizing before with
  | case1 => simp at parts
  | case2 last =>
    cases before with
    | nil =>
      injection parts with same rest
      exact absurd rest.symm further
    | cons first before => simp at parts
  | case3 first next siblings element ih =>
    cases before with
    | nil =>
      injection parts with same rest
      rw [← same]
      exact element
    | cons other before =>
      injection parts with same rest
      exact ih rest
  | case4 first next siblings element ih => exact ih parts

theorem entriesOf_visited (acSysIp : Text) (nodes : List Node) :
    entriesOf acSysIp (visited nodes) = entriesOf acSysIp nodes := by
  apply filter_visited
  intro node selected
  simp only [isNamed, Bool.and_eq_true] at selected
  exact selected.1.1

end Visited

section Addresses

/-- The destinations that the loop takes from the nodes it visits. -/
def taken (acSysIp : Text) : List Node → Option (List IPList)
  | [] => some []
  | node :: nodes => do
    let name ← node.name
    if stricmp name gpip then
      let content ← node.text
      if stricmp content acSysIp then
        match nodes with
        | [] => some []
        | next :: nodes =>
          let ip ← next.text
          let more ← taken acSysIp nodes
          some (⟨ip, next⟩ :: more)
      else
        let more ← taken acSysIp nodes
        some (⟨content, node⟩ :: more)
    else
      some []

variable {acSysIp : Text}

theorem contentOf_childs (node : Node) : contentOf node.childs = node.text := rfl

theorem meets_append {post : List IPList → Prop} (tempList : List IPList) (node : Node) :
    Meets post (fun _ => True) (append tempList node) ↔
      ∃ ip, node.text = some ip ∧ post (tempList ++ [⟨ip, node⟩]) := by
  simp [append, contentOf_childs]

theorem meets_rest {post : List IPList → Prop} {tempList : List IPList} {siblings : List Node}
    (loop : following siblings ≠ [] →
      (Meets post (fun _ => True) (addresses acSysIp tempList (following siblings)) ↔
        ∃ more, taken acSysIp (visited (following siblings)) = some more ∧
          post (tempList ++ more))) :
    Meets post (fun _ => True) (if (following siblings).isEmpty then return tempList
        else addresses acSysIp tempList (following siblings)) ↔
      ∃ more, taken acSysIp (visitedTail siblings) = some more ∧ post (tempList ++ more) := by
  by_cases last : siblings = []
  · subst last
    simp [following, visitedTail, taken]
  · have further : following siblings ≠ [] := fun none => last (following_nil.mp none)
    have nonempty : (following siblings).isEmpty = false := by simpa using further
    rw [nonempty, if_neg (by simp), loop further, visited_following]

theorem meets_addresses {post : List IPList → Prop} {tempList : List IPList} {current : List Node}
    (present : current ≠ []) : Meets post (fun _ => True) (addresses acSysIp tempList current) ↔
      ∃ more, taken acSysIp (visited current) = some more ∧ post (tempList ++ more) := by
  induction length : current.length using Nat.strong_induction_on generalizing current tempList with
  | _ count ih =>
    cases current with
    | nil => exact absurd rfl present
    | cons node siblings =>
      have shorter := following_length siblings
      have rest (tempList : List IPList) {siblings : List Node} (fewer : siblings.length < count) :=
        @meets_rest acSysIp post tempList siblings fun further =>
          ih _ (lt_of_le_of_lt (following_length siblings) fewer) further rfl
      have below : siblings.length < count := by rw [← length]; exact Nat.lt_succ_self _
      rw [addresses, visited, taken.eq_def]
      dsimp only
      cases named : node.name with
      | none => simp
      | some name =>
        by_cases isIp : stricmp name gpip = true
        · cases reads : node.text with
          | none => simp [isIp, contentOf_childs, reads]
          | some content =>
            by_cases own : stricmp content acSysIp = true
            · simp only [meets_bind, meets_need, contentOf_childs, reads, isIp, own, if_true,
                Option.some.injEq, exists_eq_left', Option.bind_eq_bind, Option.bind_some]
              rw [← visited_following siblings]
              split
              · rename_i last
                simp [last, visited]
              · rename_i next behind moved
                have fewer : behind.length < count := by
                  rw [moved, List.length_cons] at shorter
                  omega
                simp only [meets_bind, meets_append, rest _ fewer, moved, visited]
                cases next.text with
                | none => simp
                | some ip => simp [Option.bind_eq_some_iff]
            · simp only [meets_bind, meets_need, contentOf_childs, reads, isIp, own, if_true,
                if_false,
                Bool.false_eq_true, Option.some.injEq, exists_eq_left', Option.bind_eq_bind,
                Option.bind_some, meets_append, rest _ below]
              simp [Option.bind_eq_some_iff]
        · simp [isIp]

theorem holds_nil {entries : List Node} : Holds entries [] ↔ entries = [] := by
  simp [Holds, eq_comm]

theorem holds_cons {node : Node} {entries : List Node} {destination : IPList}
    {more : List IPList} (copies : destination.entry.text = some destination.IP) :
    Holds (node :: entries) (destination :: more) ↔
      destination.entry = node ∧ destination.IP.length ≤ 15 ∧ Holds entries more := by
  simp only [Holds, List.map_cons, List.cons.injEq, List.forall_mem_cons, copies, true_and]
  tauto

theorem entry_of_holds {entries : List Node} {destination : IPList} {more : List IPList}
    (holds : Holds entries (destination :: more)) : destination.entry ∈ entries := by
  rw [← holds.1]
  exact List.mem_cons_self

def IsOther (acSysIp : Text) (node : Node) : Prop :=
  isNamed gpip node = true ∧ isOwn acSysIp node = false

theorem other_of_entries {nodes : List Node} {node : Node}
    (member : node ∈ entriesOf acSysIp nodes) : IsOther acSysIp node := by
  simpa [entriesOf, IsOther] using (List.mem_filter.mp member).2

theorem entriesOf_other {node : Node} (other : IsOther acSysIp node) (nodes : List Node) :
    entriesOf acSysIp (node :: nodes) = node :: entriesOf acSysIp nodes :=
  List.filter_cons_of_pos (by simp [other.1, other.2])

theorem entriesOf_skip {node : Node} (skipped : ¬ IsOther acSysIp node) (nodes : List Node) :
    entriesOf acSysIp (node :: nodes) = entriesOf acSysIp nodes :=
  List.filter_cons_of_neg (by simpa [IsOther] using skipped)

theorem isNamed_of_text {tag name content : Text} {node : Node} (named : node.name = some name)
    (reads : node.text = some content) : isNamed tag node = stricmp name tag := by
  simp [isNamed, element_of_text reads, named]

theorem isOwn_of_text {content : Text} {node : Node} (reads : node.text = some content) :
    isOwn acSysIp node = stricmp content acSysIp := by
  simp [isOwn, reads]

theorem taken_holds {others : List Node} (each : ∀ node ∈ others, IsOther acSysIp node) :
    ∀ nodes, (∃ more, taken acSysIp nodes = some more ∧
      Holds (entriesOf acSysIp nodes ++ others) more) ↔ AddressesFine acSysIp nodes ∧ others = []
  | [] => by simp [taken, AddressesFine, holds_nil, entriesOf]
  | node :: nodes => by
    have expected {destination : IPList} {more : List IPList} {nodes : List Node}
        (holds : Holds (entriesOf acSysIp nodes ++ others) (destination :: more)) :
        IsOther acSysIp destination.entry := by
      rcases List.mem_append.mp (entry_of_holds holds) with member | member
      · exact other_of_entries member
      · exact each _ member
    rw [taken.eq_def, AddressesFine.eq_def]
    dsimp only
    cases named : node.name with
    | none => simp
    | some name =>
      by_cases isIp : stricmp name gpip = true
      · cases reads : node.text with
        | none => simp [isIp]
        | some content =>
          by_cases own : stricmp content acSysIp = true
          · have skipped : ¬ IsOther acSysIp node := by
              intro other
              rw [IsOther, isOwn_of_text reads, own] at other
              exact absurd other.2 (by simp)
            cases nodes with
            | nil =>
              rw [entriesOf_skip skipped]
              simp [own, holds_nil, entriesOf]
            | cons next nodes =>
              have ih := taken_holds each nodes
              rw [entriesOf_skip skipped]
              cases copies : next.text with
              | none => simp [isIp, own, copies]
              | some ip =>
                by_cases other : IsOther acSysIp next
                · have foreign := other.2
                  rw [isOwn_of_text copies] at foreign
                  simp [isIp, own, copies, entriesOf_other other, Option.bind_eq_some_iff,
                    holds_cons, other.1, foreign, and_assoc, ← ih]
                  tauto
                · have unlike (more : List IPList) :
                      ¬ Holds (entriesOf acSysIp (next :: nodes) ++ others) (⟨ip, next⟩ :: more) :=
                    fun holds => other (expected holds)
                  have own : isNamed gpip next = true → stricmp ip acSysIp = true := by
                    intro isIp
                    rw [IsOther, isOwn_of_text copies] at other
                    simpa [isIp] using other
                  simp_all [Option.bind_eq_some_iff]
          · have foreign : stricmp content acSysIp = false := by simpa using own
            have other : IsOther acSysIp node :=
              ⟨by rw [isNamed_of_text named reads, isIp], by rw [isOwn_of_text reads, foreign]⟩
            have ih := taken_holds each nodes
            simp [isIp, foreign, entriesOf_other other, Option.bind_eq_some_iff, holds_cons, reads,
              and_assoc, ← ih]
            tauto
      · have skipped : ¬ IsOther acSysIp node := by
          intro other
          have isIp' := other.1
          simp [isNamed, named, isIp] at isIp'
        simp [isIp, entriesOf_skip skipped, holds_nil]

end Addresses

section StartPoints

variable {acSysIp : Text} {pstFDInfo : FileDistInfoStruct} {destinations : List IPList → Prop}

/-- What the start point needs for a list of destinations that is as `destinations` has it. -/
def StartReads (acSysIp : Text) (destinations : List IPList → Prop) (node : Node) : Prop :=
  (∃ active, node.properties[1]? = some active ∧
    (stricmp active.name gpactive = true → active.content.isSome)) ∧
  ∃ list siblings name, node.childs = list :: siblings ∧ list.name = some name ∧
    (stricmp name gpiplist = true → list.childs ≠ [] ∧
      ∃ more, taken acSysIp (visited list.childs) = some more ∧ destinations more)

theorem addresses_null (tempList : List IPList) :
    addresses acSysIp tempList [] = .error .fault := by
  rw [addresses]

theorem meets_readActive {post : Int16 → Prop} {node : Node} {iactive : Int16} {read : Prop}
    (same : ∀ value, post value ↔ read) :
    Meets post (fun _ => True) (readActive node iactive) ↔
      (∃ active, node.properties[1]? = some active ∧
        (stricmp active.name gpactive = true → active.content.isSome)) ∧ read := by
  rw [readActive, meets_bind, meets_need]
  cases node.properties[1]? with
  | none => simp
  | some active =>
    by_cases named : stricmp active.name gpactive = true
    · simp [named, same, Option.isSome_iff_exists]
    · simp [named, same]

theorem meets_startPoint {node : Node} {sourceIp : Text} (fresh : pstFDInfo.config.destIp = []) :
    Meets (fun info => destinations info.config.destIp) (fun _ => True)
        (startPoint acSysIp pstFDInfo node sourceIp) ↔ StartReads acSysIp destinations node := by
  rw [startPoint, meets_bind]
  apply meets_readActive
  intro iactive
  rw [meets_bind, meets_need]
  cases node.childs with
  | nil => simp
  | cons list siblings =>
    cases named : list.name with
    | none => simp [named]
    | some name =>
      by_cases isList : stricmp name gpiplist = true
      · by_cases present : list.childs = []
        · simp [named, isList, present, addresses_null]
        · simp [named, isList, present, fresh, meets_addresses present, Function.comp_def]
      · simp [named, isList]

theorem meets_startPoints (fresh : pstFDInfo.config.destIp = []) {current : List Node}
    (present : current ≠ []) :
    Meets (fun info => destinations info.config.destIp) (fun _ => True)
        (startPoints acSysIp pstFDInfo current) ↔
      StartsReadable acSysIp (StartReads acSysIp destinations) (visited current) := by
  induction length : current.length using Nat.strong_induction_on generalizing current with
  | _ count ih =>
    cases current with
    | nil => exact absurd rfl present
    | cons node siblings =>
      have fewer : (following siblings).length < count := by
        rw [← length]
        exact Nat.lt_succ_of_le (following_length siblings)
      rw [startPoints, visited, StartsReadable, ← visited_following siblings]
      cases named : node.name with
      | none => simp
      | some name =>
        by_cases isStart : stricmp name gpdiststartPt = true
        · cases first : node.properties.head? with
          | none => simp [isStart]
          | some property =>
            cases val : property.content with
            | none => simp [isStart, val]
            | some content =>
              by_cases own : stricmp content acSysIp = true
              · simp [isStart, val, own, meets_startPoint fresh]
              · by_cases last : following siblings = []
                · simp [val, own, last, visited, StartsReadable]
                · simp [isStart, val, own, last, ih _ fewer last rfl]
        · simp [isStart]

theorem meets_distPoints (fresh : pstFDInfo.config.destIp = []) (node : Node)
    (siblings : List Node) :
    Meets (fun info => destinations info.config.destIp) (fun _ => True)
        (distPoints acSysIp pstFDInfo (node :: siblings)) ↔
      PointsReadable acSysIp (StartReads acSysIp destinations) node := by
  rw [distPoints, PointsReadable]
  cases named : node.name with
  | none => simp [nameOf, named]
  | some name =>
    by_cases isPoints : stricmp name gpdistPts = true
    · by_cases present : node.childs = []
      · have null : startPoints acSysIp pstFDInfo [] = .error .fault := by rw [startPoints]
        simp [nameOf, named, isPoints, present, null]
      · simp [nameOf, named, isPoints, present, meets_startPoints fresh present]
    · simp [nameOf, named, isPoints]

end StartPoints

section Header

variable {P : Prop}

theorem meets_datePart {post : StFDDate → Prop} (same : ∀ read, post read ↔ P) (tag : Text)
    (store : StFDDate → Option Int16 → StFDDate) (date : StFDDate) (node : Node)
    (siblings : List Node) :
    Meets post (fun _ => True) (datePart tag store date (node :: siblings)) ↔
      (∃ name, node.name = some name ∧ (stricmp name tag = true → node.text.isSome)) ∧ P := by
  rw [datePart]
  cases named : node.name with
  | none => simp [nameOf, named]
  | some name =>
    by_cases isTag : stricmp name tag = true
    · simp [nameOf, named, isTag, same, contentOf_childs, Option.isSome_iff_exists]
    · simp [nameOf, named, isTag, same]

theorem datePart_null (tag : Text) (store : StFDDate → Option Int16 → StFDDate) (date : StFDDate) :
    datePart tag store date [] = .error .fault := rfl

theorem meets_dateParts {post : StFDDate → Prop} (same : ∀ read, post read ↔ P)
    (parts : List (Text × (StFDDate → Option Int16 → StFDDate))) (date : StFDDate) (node : Node)
    (siblings : List Node) :
    Meets post (fun _ => True) (dateParts parts date (node :: siblings)) ↔
      DateReadable (parts.map Prod.fst) (visitedTail siblings) ∧ P := by
  induction parts generalizing date node siblings with
  | nil => simp [dateParts, DateReadable, same]
  | cons part parts ih =>
    obtain ⟨tag, store⟩ := part
    rw [← visited_following siblings]
    simp only [dateParts, moveNextNode, meets_bind, meets_need, Option.some.injEq, exists_eq_left']
    cases following siblings with
    | nil => simp [datePart_null, visited, DateReadable]
    | cons next behind =>
      rw [meets_datePart (fun read => ih read next behind)]
      simp only [visited, List.map_cons, DateReadable, and_assoc]

theorem meets_schedule {post : StFDDate → Prop} (same : ∀ read, post read ↔ P) (date : StFDDate)
    (node : Node) (siblings : List Node) :
    Meets post (fun _ => True) (schedule date (node :: siblings)) ↔ ScheduleReadable node ∧ P := by
  rw [schedule, ScheduleReadable]
  cases first : node.properties.head? with
  | none => simp [first]
  | some property =>
    by_cases isSchedule : stricmp property.name gpcShed = true
    · cases val : property.content with
      | none => simp [first, isSchedule, val]
      | some content =>
        by_cases isDate : stricmp content datetime = true
        · cases childs : node.childs with
          | nil =>
            simp [first, isSchedule, val, isDate, childs, datePart_null, visited, DateReadable,
              dateTags]
          | cons child behind =>
            have read (date : StFDDate) := meets_dateParts same laterParts date child behind
            simp only [List.head?_cons, meets_bind, meets_need, Option.some.injEq, exists_eq_left',
              first, isSchedule, if_true, val, isDate, childs, meets_datePart read, visited,
              forall_const]
            simp only [dateTags, laterParts, List.map_cons, List.map_nil, DateReadable, and_assoc]
        · simp [first, isSchedule, val, isDate, same]
    · simp [first, isSchedule, same]

/-- A step of the header reads its element as `part` has it, and leaves the configuration. -/
structure Reads (part : Part) (tag : Text)
    (step : FileDistInfoStruct → List Node → Parse FileDistInfoStruct) : Prop where
  null : ∀ info, step info [] = .error .fault
  node : ∀ {post : FileDistInfoStruct → Prop} {P : Prop} {info node siblings},
    (∀ read, read.config = info.config → (post read ↔ P)) →
      (Meets post (fun _ => True) (step info (node :: siblings)) ↔
        node.name.isSome ∧ (part.Accepts tag node → part.Readable node ∧ P))

theorem reads_copied {tag : Text} {store : FileDistInfoStruct → Text → FileDistInfoStruct}
    (kept : ∀ info text, (store info text).config = info.config) :
    Reads .copied tag (copied tag store) where
  null info := rfl
  node {post P info node siblings} same := by
    rw [copied]
    cases named : node.name with
    | none => simp [nameOf, named]
    | some name =>
      by_cases isTag : stricmp name tag = true
      · by_cases present : node.childs = []
        · simp [nameOf, named, isTag, present, Part.Accepts]
        · simp [nameOf, named, isTag, present, Part.Accepts, Part.Readable, contentOf_childs,
            same _ (kept info _), Option.isSome_iff_exists]
      · simp [nameOf, named, isTag, Part.Accepts]

theorem reads_passed {tag : Text} : Reads .passed tag (passed tag) where
  null info := rfl
  node {post P info node siblings} same := by
    rw [passed]
    cases named : node.name with
    | none => simp [nameOf, named]
    | some name =>
      by_cases isTag : stricmp name tag = true
      · simp [nameOf, named, isTag, Part.Accepts, Part.Readable, same info rfl]
      · simp [nameOf, named, isTag, Part.Accepts]

theorem reads_scheduled {tag : Text} {date : FileDistInfoStruct → StFDDate}
    {store : FileDistInfoStruct → StFDDate → FileDistInfoStruct}
    (kept : ∀ info date, (store info date).config = info.config) :
    Reads .scheduled tag (scheduled tag date store) where
  null info := rfl
  node {post P info node siblings} same := by
    rw [scheduled]
    cases named : node.name with
    | none => simp [nameOf, named]
    | some name =>
      by_cases isTag : stricmp name tag = true
      · have read := meets_schedule (fun read => same _ (kept info read)) (date info) node siblings
        simp [nameOf, named, isTag, Part.Accepts, Part.Readable, Function.comp_def, read]
      · simp [nameOf, named, isTag, Part.Accepts]

theorem reads_bandwidth : Reads .number gpband bandwidth where
  null info := rfl
  node {post P info node siblings} same := by
    rw [bandwidth]
    cases named : node.name with
    | none => simp [nameOf, named]
    | some name =>
      by_cases isTag : stricmp name gpband = true
      · simp [nameOf, named, isTag, Part.Accepts, Part.Readable, contentOf_childs, same,
          Option.isSome_iff_exists]
      · simp [nameOf, named, isTag, Part.Accepts]

theorem meets_next {part : Part} {tag : Text} {parts : List (Part × Text)} {last : Node → Prop}
    {step next : FileDistInfoStruct → List Node → Parse FileDistInfoStruct}
    {post : FileDistInfoStruct → Prop} (reads : Reads part tag step)
    (behind : ∀ info current, info.config = {} →
      (Meets post (fun _ => True) (next info current) ↔
        HeaderReadable last parts (visited current)))
    (info : FileDistInfoStruct) (current : List Node) (fresh : info.config = {}) :
    Meets post (fun _ => True) (do
        let info ← step info current
        let current ← need (moveNextNode current)
        next info current) ↔
      HeaderReadable last ((part, tag) :: parts) (visited current) := by
  cases current with
  | nil => simp [reads.null, visited, HeaderReadable]
  | cons node siblings =>
    have rest (read : FileDistInfoStruct) (same : read.config = info.config) :
        Meets post (fun _ => True) (do
            let current ← need (moveNextNode (node :: siblings))
            next read current) ↔
          HeaderReadable last parts (visitedTail siblings) := by
      simp only [moveNextNode, meets_bind, meets_need, Option.some.injEq, exists_eq_left',
        behind read _ (same.trans fresh), visited_following]
    rw [meets_bind, reads.node rest, visited, HeaderReadable]

theorem meets_parse {acSysIp pcBuffer : Text} {rootNode : Node}
    {destinations : List IPList → Prop} :
    Meets (fun info => destinations info.config.destIp) (fun _ => True)
        (FD_ParseXMLData acSysIp pcBuffer (some rootNode) {}) ↔
      HeaderReadable (PointsReadable acSysIp (StartReads acSysIp destinations)) headerParts
        (visited rootNode.childs) := by
  rw [FD_ParseXMLData, headerParts]
  refine meets_next (reads_copied ?_) (meets_next (reads_copied ?_) ?_) {} rootNode.childs rfl
  · exact fun info text => rfl
  · exact fun info text => rfl
  refine meets_next reads_passed (meets_next reads_passed ?_)
  refine meets_next (reads_scheduled ?_) (meets_next (reads_scheduled ?_) ?_)
  · exact fun info date => rfl
  · exact fun info date => rfl
  refine meets_next (reads_copied ?_) (meets_next (reads_copied ?_) (meets_next reads_bandwidth ?_))
  · exact fun info text => rfl
  · exact fun info text => rfl
  intro info current fresh
  cases current with
  | nil => simp [distPoints, nameOf, need, visited, HeaderReadable]
  | cons node siblings =>
    have empty : info.config.destIp = [] := by rw [fresh]
    rw [meets_bind]
    exact meets_distPoints empty node siblings

end Header

section Path

variable {acSysIp : Text} {rootNode : Node}

theorem headerReadable_congr {last last' : Node → Prop} {parts : List (Part × Text)}
    {nodes : List Node} (same : ∀ header node rest, nodes = header ++ node :: rest →
      List.Forall₂ (fun node part => Part.Accepts part.1 part.2 node) header parts →
        (last node ↔ last' node)) :
    HeaderReadable last parts nodes ↔ HeaderReadable last' parts nodes := by
  induction parts generalizing nodes with
  | nil =>
    cases nodes with
    | nil => rfl
    | cons node nodes => exact same [] node nodes rfl List.Forall₂.nil
  | cons part parts ih =>
    cases nodes with
    | nil => rfl
    | cons node nodes =>
      simp only [HeaderReadable]
      refine and_congr_right fun _ => imp_congr_right fun accepts => and_congr_right fun _ => ih ?_
      intro header last rest walk accepted
      exact same (node :: header) last rest (by rw [walk]; rfl) (accepted.cons accepts)

theorem startsReadable_congr {own own' : Node → Prop} {nodes : List Node}
    (same : ∀ before node rest, nodes = before ++ node :: rest →
      (∃ name, node.name = some name ∧ stricmp name gpdiststartPt = true) →
      namesHost acSysIp node = true → (∀ other ∈ before, namesHost acSysIp other = false) →
        (own node ↔ own' node)) :
    StartsReadable acSysIp own nodes ↔ StartsReadable acSysIp own' nodes := by
  induction nodes with
  | nil => rfl
  | cons node nodes ih =>
    simp only [StartsReadable]
    refine exists_congr fun name => and_congr_right fun named => imp_congr_right fun isStart => ?_
    refine exists_congr fun property => exists_congr fun content => and_congr_right fun first =>
      and_congr_right fun val => ?_
    have names : namesHost acSysIp node = stricmp content acSysIp := by
      simp [namesHost, first, val]
    split
    · rename_i own
      exact same [] node nodes rfl ⟨name, named, isStart⟩ (by rw [names, own]) (by simp)
    · rename_i other
      refine ih fun before start rest walk named hosts others => ?_
      refine same (node :: before) start rest (by rw [walk]; rfl) named hosts ?_
      intro node member
      rcases List.mem_cons.mp member with rfl | member
      · rw [names]
        simpa using other
      · exact others node member

theorem element_of_childs {node : Node} (present : node.childs ≠ []) : node.isElement = true := by
  cases node with
  | element name properties childs => rfl
  | other name content => exact absurd rfl present

theorem element_of_named {tag : Text} (node : Node) (named : isNamed tag node = true) :
    node.isElement = true := (Bool.and_eq_true_iff.mp named).1

theorem isNamed_of_element {tag : Text} {node : Node} (element : node.isElement = true)
    (named : ∃ name, node.name = some name ∧ stricmp name tag = true) :
    isNamed tag node = true := by
  obtain ⟨name, named, isTag⟩ := named
  simp [isNamed, element, named, isTag]

theorem stricmp_iff (left right : Text) :
    stricmp left right = true ↔ left.map Char.toLower = right.map Char.toLower := by
  simp [stricmp]

theorem header_elements {nodes header rest : List Node} {points : Node}
    (walk : visited nodes = header ++ points :: rest)
    (accepted :
      List.Forall₂ (fun node part => Part.Accepts part.1 part.2 node) header headerParts) :
    ∀ node ∈ header, node.isElement = true := by
  cases header with
  | nil => simp
  | cons first header =>
    cases nodes with
    | nil => simp [visited] at walk
    | cons node siblings =>
      intro node member
      rcases List.mem_cons.mp member with rfl | member
      · rw [headerParts, List.forall₂_cons] at accepted
        exact element_of_childs (accepted.1.2 rfl)
      · obtain ⟨before, after, rfl⟩ := List.append_of_mem member
        injection walk with same tail
        refine @visitedTail_element siblings before (after ++ points :: rest) node ?_ ?_
        · rw [tail]
          simp
        · simp

theorem inOrder_of_walk {header rest : List Node} {points : Node}
    (walk : visited rootNode.childs = header ++ points :: rest)
    (accepted : List.Forall₂ (fun node part => Part.Accepts part.1 part.2 node) header headerParts)
    (isPoints : isNamed gpdistPts points = true) : InOrder rootNode := by
  refine ⟨header ++ [points], ?_, ?_⟩
  · refine List.Sublist.trans ?_ (visited_sublist rootNode.childs)
    rw [walk, List.append_cons header points rest]
    exact List.sublist_append_left _ _
  · have elements := header_elements walk accepted
    have named : List.Forall₂ (fun node (part : Part × Text) => isNamed part.2 node = true) header
        headerParts := by
      refine List.Forall₂.imp ?_
        ((List.forall₂_and_left header headerParts).mpr ⟨elements, accepted⟩)
      rintro node part ⟨element, accepts⟩
      exact isNamed_of_element element accepts.1
    have tags : packageParts = headerParts.map Prod.snd ++ [gpdistPts] := rfl
    rw [tags]
    refine List.rel_append ?_ (List.Forall₂.cons isPoints List.Forall₂.nil)
    rw [List.forall₂_map_left_iff]
    exact named.flip

theorem forall_left {α β : Type} {relation : α → β → Prop} {lefts : List α} {rights : List β}
    {property : α → Prop} (pairs : List.Forall₂ relation lefts rights)
    (implied : ∀ left right, right ∈ rights → relation left right → property left) :
    ∀ left ∈ lefts, property left := by
  induction pairs with
  | nil => simp
  | cons related pairs ih =>
    intro left member
    rcases List.mem_cons.mp member with rfl | member
    · exact implied _ _ List.mem_cons_self related
    · exact ih (fun left right known => implied left right (List.mem_cons_of_mem _ known))
        left member

theorem header_tags : ∀ part ∈ headerParts, ¬ stricmp part.2 gpdistPts = true := by
  decide

theorem points_of_walk {header rest : List Node} {points : Node}
    (walk : visited rootNode.childs = header ++ points :: rest)
    (accepted : List.Forall₂ (fun node part => Part.Accepts part.1 part.2 node) header headerParts)
    (isPoints : isNamed gpdistPts points = true) :
    rootNode.childs.find? (isNamed gpdistPts) = some points := by
  have before : header.find? (isNamed gpdistPts) = none := by
    rw [List.find?_eq_none]
    refine forall_left accepted fun node part known accepts named => header_tags part known ?_
    obtain ⟨⟨name, found, isTag⟩, -⟩ := accepts
    have isPoints : stricmp name gpdistPts = true := by
      simpa [isNamed, found] using (Bool.and_eq_true_iff.mp named).2
    rw [stricmp_iff] at isTag isPoints ⊢
    exact isTag.symm.trans isPoints
  rw [find_visited element_of_named, walk, List.find?_append, before,
    List.find?_cons_of_pos isPoints]
  rfl

theorem start_of_walk {nodes before rest : List Node} {start : Node}
    (walk : visited nodes = before ++ start :: rest)
    (named : ∃ name, start.name = some name ∧ stricmp name gpdiststartPt = true)
    (hosts : namesHost acSysIp start = true)
    (others : ∀ other ∈ before, namesHost acSysIp other = false) :
    (nodes.find? fun node => isNamed gpdiststartPt node && namesHost acSysIp node) =
      some start := by
  have element : start.isElement = true := by
    cases start with
    | element name properties childs => rfl
    | other name content => simp [namesHost, Node.properties] at hosts
  rw [find_visited fun node selected => element_of_named node (Bool.and_eq_true_iff.mp selected).1,
    walk, List.find?_append]
  have before : (before.find? fun node => isNamed gpdiststartPt node && namesHost acSysIp node) =
      none := by
    rw [List.find?_eq_none]
    intro node member
    simp [others node member]
  rw [before, List.find?_cons_of_pos (by simp [isNamed_of_element element named, hosts])]
  rfl

theorem other_of_listEntries {nodes : List Node} :
    ∀ node ∈ listEntries acSysIp nodes, IsOther acSysIp node := by
  intro node member
  obtain ⟨list, -, member⟩ := List.mem_flatMap.mp member
  exact other_of_entries member

theorem startReads_iff {destinations : List IPList → Prop} {node : Node}
    (same : ∀ more, destinations more ↔ Holds (listEntries acSysIp node.childs) more) :
    StartReads acSysIp destinations node ↔ StartFine acSysIp node := by
  unfold StartReads StartFine
  refine and_congr_right fun _ => exists_congr fun list => exists_congr fun siblings =>
    exists_congr fun name => and_congr_right fun childs => and_congr_right fun named =>
      imp_congr_right fun isList => and_congr_right fun present => ?_
  have isNamedList : isNamed gpiplist list = true :=
    isNamed_of_element (element_of_childs present) ⟨name, named, isList⟩
  have entries : listEntries acSysIp node.childs =
      entriesOf acSysIp (visited list.childs) ++ listEntries acSysIp siblings := by
    rw [childs, listEntries, List.filter_cons_of_pos isNamedList, List.flatMap_cons,
      entriesOf_visited]
    rfl
  simp only [same, entries]
  exact taken_holds other_of_listEntries (visited list.childs)

/-- The parser returns for exactly the documents that are complete along its walk, and takes the
destinations of those and no others. -/
theorem parsesRight_iff (acSysIp pcBuffer : Text) (doc : Option Node) :
    ParsesRight acSysIp pcBuffer doc ↔
      ∀ rootNode, doc = some rootNode → Complete acSysIp rootNode := by
  cases doc with
  | none => simp [ParsesRight, FD_ParseXMLData]
  | some rootNode =>
    have parse := @meets_parse acSysIp pcBuffer rootNode fun destIp => InOrder rootNode ∧ ∃ start,
      hostStart acSysIp rootNode = some start ∧ Holds (listEntries acSysIp start.childs) destIp
    simp only [ParsesRight, Parsed, Option.some.injEq, forall_eq']
    rw [parse, Complete]
    apply headerReadable_congr
    intro header points rest walk accepted
    refine exists_congr fun name => and_congr_right fun named => imp_congr_right fun isPoints =>
      and_congr_right fun present => startsReadable_congr ?_
    intro before start rest' inner isStart hosts others
    have pointsNamed : isNamed gpdistPts points = true :=
      isNamed_of_element (element_of_childs present) ⟨name, named, isPoints⟩
    have found : hostStart acSysIp rootNode = some start := by
      rw [hostStart, points_of_walk walk accepted pointsNamed]
      exact start_of_walk inner isStart hosts others
    refine startReads_iff fun more => ?_
    simp [inOrder_of_walk walk accepted pointsNamed, found]

end Path

section Documents

def ownAddress : Text := "10.0.0.7".toList

def package (addresses : List Node) : Node :=
  .element "FileDist".toList [] [leaf gpcPackageID "7".toList, leaf gpcPackName "tools".toList,
    leaf gpcPackDesc "".toList, leaf gpcPacCreateDt "".toList,
    .element gpPkgShed [⟨gpcShed, some (some immediate)⟩] [],
    .element gpcInstaShed [⟨gpcShed, some (some immediate)⟩] [], leaf gpccomm "install".toList,
    leaf gppath "/opt".toList, leaf gpband "100".toList, .element gpdistPts []
      [.element gpdiststartPt [⟨gpip, some (some ownAddress)⟩, ⟨gpactive, some (some continuous)⟩]
        [.element gpiplist [] addresses]]]

/-- A document without elements is read through NULL, and an own address that is given twice is
taken for a destination. -/
theorem empty_or_twice :
    ¬ ParsesRight ownAddress [] (some (.element "FileDist".toList [] [])) ∧
    ¬ ParsesRight ownAddress []
      (some (package [leaf gpip ownAddress, leaf gpip ownAddress])) := by
  constructor
  · simp [ParsesRight, FD_ParseXMLData, copied, nameOf, Node.childs, need]
  · intro right
    have destinations : (FD_ParseXMLData ownAddress []
        (some (package [leaf gpip ownAddress, leaf gpip ownAddress])) {}).toOption.map
          (fun info => info.config.destIp.map IPList.IP) = some [ownAddress] := by decide +kernel
    rw [ParsesRight] at right
    cases parsed : FD_ParseXMLData ownAddress []
        (some (package [leaf gpip ownAddress, leaf gpip ownAddress])) {} with
    | error stop =>
      rw [parsed] at destinations
      cases destinations
    | ok info =>
      rw [parsed] at destinations
      rw [parsed, meets_ok] at right
      have destinations : info.config.destIp.map IPList.IP = [ownAddress] :=
        Option.some.inj destinations
      obtain ⟨-, start, -, same, texts⟩ := right _ rfl
      obtain ⟨destination, rest, list⟩ :
          ∃ destination rest, info.config.destIp = destination :: rest := by
        cases list : info.config.destIp with
        | nil => simp [list] at destinations
        | cons destination rest => exact ⟨destination, rest, rfl⟩
      have holds : Holds (listEntries ownAddress start.childs) (destination :: rest) := by
        rw [← list]
        exact ⟨same, texts⟩
      have other : IsOther ownAddress destination.entry :=
        other_of_listEntries _ (entry_of_holds holds)
      have own : destination.IP = ownAddress := by
        rw [list] at destinations
        exact (List.cons.inj destinations).1
      have text := (texts destination (by rw [list]; exact List.mem_cons_self)).1
      have foreign := other.2
      rw [isOwn_of_text text, own] at foreign
      exact absurd foreign (by decide)

end Documents

end EveAgent.FileDist.ParseXml

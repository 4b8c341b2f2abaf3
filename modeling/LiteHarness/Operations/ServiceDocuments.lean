import LiteHarness.Operations.ServiceReading

/-!
# Service definitions in XML

The property list and the task are documents whose tags do not depend on the paths in them, so that
the elements can be told without the paths, and the paths are read from where they were put
(`readPropertyList_eq`, `readTask_eq`). With what the systemd unit gives back
(`readUnit_iff`), this says for every platform when a definition is read back
(`readsBack_iff`).
-/

namespace LiteHarness.Operations

open Xml Systemd

/-- A tag and the text behind it, as they are written. -/
def tagged (part : JsString × JsString) : JsString := 60 :: (part.1 ++ 62 :: xml part.2)

/-! ## The property list -/

def xmlDeclaration : JsString := js "?xml version=\"1.0\" encoding=\"UTF-8\"?"

def listType : JsString :=
  js "!DOCTYPE plist PUBLIC \"-//Apple//DTD PLIST 1.0//EN\" " ++
    js "\"http://www.apple.com/DTDs/PropertyList-1.0.dtd\""

/-- What is in the property list. -/
def listForest (root dataDir a b c d : JsString) : Forest :=
  .element (js "dict") [] []
    (.leaf (js "key") (js "Label") <| .leaf (js "string") serviceId <|
      .leaf (js "key") (js "ProgramArguments") <|
      .element (js "array") [] []
        (.leaf (js "string") a <| .leaf (js "string") b <| .leaf (js "string") c <|
          .leaf (js "string") d .nil) <|
      .leaf (js "key") (js "WorkingDirectory") <| .leaf (js "string") root <|
      .leaf (js "key") (js "EnvironmentVariables") <|
      .element (js "dict") [] []
        (.leaf (js "key") (js "LITE_HARNESS_DATA_DIR") <| .leaf (js "string") dataDir .nil) <|
      .leaf (js "key") (js "RunAtLoad") <| .empty (js "true") <|
      .leaf (js "key") (js "KeepAlive") <|
      .element (js "dict") [] []
        (.leaf (js "key") (js "SuccessfulExit") <| .empty (js "false") .nil) .nil) .nil

abbrev listDocument (root dataDir a b c d : JsString) : List (JsString × JsString) :=
  documentParts [(xmlDeclaration, [10]), (listType, [10])] (js "plist") (js " version=\"1.0\"")
    (listForest root dataDir a b c d) [10]

theorem propertyList_eq (root dataDir a b c d : JsString) :
    propertyList root dataDir a [b, c, d] =
      (listDocument root dataDir a b c d).flatMap tagged := by
  have hopen : js "<string>" = 60 :: (js "string" ++ [62]) := by decide +kernel
  have hvalue (text : JsString) : tagged (js "string", text) = js "<string>" ++ xml text := by
    simp [tagged, hopen]
  have hclose : tagged (47 :: js "string", []) = js "</string>" := by decide +kernel
  have hid : xml serviceId = serviceId := by decide +kernel
  -- the texts between the values, tag by tag
  have hdeclaration : js "<?xml version=\"1.0\" encoding=\"UTF-8\"?>\n" =
      tagged (xmlDeclaration, [10]) := by decide +kernel
  have htype : js "<!DOCTYPE plist PUBLIC \"-//Apple//DTD PLIST 1.0//EN\" " ++
      js "\"http://www.apple.com/DTDs/PropertyList-1.0.dtd\">\n" = tagged (listType, [10]) := by
    decide +kernel
  have hlabel : js "<plist version=\"1.0\"><dict><key>Label</key><string>" =
      tagged (js "plist" ++ js " version=\"1.0\"", []) ++ (tagged (js "dict", []) ++
        (tagged (js "key", js "Label") ++ (tagged (47 :: js "key", []) ++ js "<string>"))) := by
    decide +kernel
  have harguments : js "<key>ProgramArguments</key><array>" =
      tagged (js "key", js "ProgramArguments") ++ (tagged (47 :: js "key", []) ++
        tagged (js "array", [])) := by decide +kernel
  have hdirectory : js "</array><key>WorkingDirectory</key><string>" =
      tagged (47 :: js "array", []) ++ (tagged (js "key", js "WorkingDirectory") ++
        (tagged (47 :: js "key", []) ++ js "<string>")) := by decide +kernel
  have hvariable :
      js "<key>EnvironmentVariables</key><dict><key>LITE_HARNESS_DATA_DIR</key><string>" =
      tagged (js "key", js "EnvironmentVariables") ++ (tagged (47 :: js "key", []) ++
        (tagged (js "dict", []) ++ (tagged (js "key", js "LITE_HARNESS_DATA_DIR") ++
          (tagged (47 :: js "key", []) ++ js "<string>")))) := by decide +kernel
  have hstart : js "</string></dict><key>RunAtLoad</key><true/><key>KeepAlive</key>" =
      js "</string>" ++ (tagged (47 :: js "dict", []) ++ (tagged (js "key", js "RunAtLoad") ++
        (tagged (47 :: js "key", []) ++ (tagged (js "true" ++ [47], []) ++
          (tagged (js "key", js "KeepAlive") ++ tagged (47 :: js "key", [])))))) := by
    decide +kernel
  have htail : js "<dict><key>SuccessfulExit</key><false/></dict></dict></plist>\n" =
      tagged (js "dict", []) ++ (tagged (js "key", js "SuccessfulExit") ++
        (tagged (47 :: js "key", []) ++ (tagged (js "false" ++ [47], []) ++
          (tagged (47 :: js "dict", []) ++ (tagged (47 :: js "dict", []) ++
            tagged (47 :: js "plist", [10])))))) := by decide +kernel
  rw [propertyList, List.flatten_cons, List.flatten_cons, List.flatten_cons,
    ← List.append_assoc (js "<!DOCTYPE plist PUBLIC \"-//Apple//DTD PLIST 1.0//EN\" "), htype,
    hdeclaration, hlabel, harguments, hdirectory, hvariable, hstart, htail]
  simp only [documentParts, listForest, Forest.parts, hvalue, hclose, hid, List.flatMap_cons,
    List.flatMap_nil, List.flatten_cons, List.flatten_nil, List.map_cons, List.map_nil,
    List.append_assoc, List.cons_append, List.nil_append, List.append_nil]
/-- The names in the property list do not depend on the texts. -/
theorem named_listForest (root dataDir a b c d : JsString) :
    (Forest.element (js "plist") (js " version=\"1.0\"") [] (listForest root dataDir a b c d)
      .nil).named = true := by
  have hblank : (Forest.element (js "plist") (js " version=\"1.0\"") []
      (listForest [] [] [] [] [] []) .nil).named = true := by rfl
  exact hblank

/-- **The property list** is read back. -/
theorem readPropertyList_eq (root dataDir a b c d : JsString) :
    readPropertyList (propertyList root dataDir a [b, c, d]) =
      some ⟨[a, b, c, d], root, some dataDir⟩ := by
  have hprolog : ∀ part ∈ [(xmlDeclaration, [10]), (listType, ([10] : JsString))],
      isDeclaration part.1 = true := by
    simp only [List.mem_cons, List.not_mem_nil, or_false, forall_eq_or_imp, forall_eq]
    exact ⟨by rfl, by rfl⟩
  have helements := elements_document unescape_xml bracket_notMem_xml [10] hprolog
    (named_listForest root dataDir a b c d)
  rw [readPropertyList, propertyList_eq]
  refine (congrArg (fun found ↦ found >>= _) helements).trans ?_
  rfl

/-! ## The task -/

def taskAttributes : JsString :=
  js " version=\"1.4\" " ++ js "xmlns=\"http://schemas.microsoft.com/windows/2004/02/mit/task\""

/-- What is in the task. -/
def taskForest (command arguments root : JsString) : Forest :=
  .element (js "Triggers") [] []
    (.element (js "LogonTrigger") [] [] (.leaf (js "Enabled") (js "true") .nil) .nil) <|
  .element (js "Principals") [] []
    (.element (js "Principal") (js " id=\"Author\"") []
      (.leaf (js "LogonType") (js "InteractiveToken") <|
        .leaf (js "RunLevel") (js "LeastPrivilege") .nil) .nil) <|
  .element (js "Settings") [] []
    (.leaf (js "MultipleInstancesPolicy") (js "IgnoreNew") <|
      .element (js "RestartOnFailure") [] []
        (.leaf (js "Interval") (js "PT1M") <| .leaf (js "Count") (js "3") .nil) <|
      .leaf (js "ExecutionTimeLimit") (js "PT0S") .nil) <|
  .element (js "Actions") (js " Context=\"Author\"") []
    (.element (js "Exec") [] []
      (.leaf (js "Command") command <| .leaf (js "Arguments") arguments <|
        .leaf (js "WorkingDirectory") root .nil) .nil) .nil

abbrev taskDocument (command arguments root : JsString) : List (JsString × JsString) :=
  documentParts [(xmlDeclaration, [])] (js "Task") taskAttributes
    (taskForest command arguments root) []

theorem scheduledTask_eq (root node : JsString) (args : List JsString) :
    scheduledTask root node args =
      (taskDocument node (windowsArguments args) root).flatMap tagged := by
  have htext (name text : JsString) : tagged (name, text) = tagged (name, []) ++ xml text := by
    simp [tagged, xml, replaceAll]
  have hdeclaration : js "<?xml version=\"1.0\" encoding=\"UTF-8\"?><Task version=\"1.4\" " ++
      js "xmlns=\"http://schemas.microsoft.com/windows/2004/02/mit/task\">" =
      tagged (xmlDeclaration, []) ++ tagged (js "Task" ++ taskAttributes, []) := by decide +kernel
  have htriggers : js "<Triggers><LogonTrigger><Enabled>true</Enabled></LogonTrigger></Triggers>" =
      tagged (js "Triggers", []) ++ (tagged (js "LogonTrigger", []) ++
        (tagged (js "Enabled", js "true") ++ (tagged (47 :: js "Enabled", []) ++
          (tagged (47 :: js "LogonTrigger", []) ++ tagged (47 :: js "Triggers", []))))) := by
    decide +kernel
  have hprincipals :
      js "<Principals><Principal id=\"Author\"><LogonType>InteractiveToken</LogonType>" =
      tagged (js "Principals", []) ++ (tagged (js "Principal" ++ js " id=\"Author\"", []) ++
        (tagged (js "LogonType", js "InteractiveToken") ++ tagged (47 :: js "LogonType", []))) := by
    decide +kernel
  have hlevel : js "<RunLevel>LeastPrivilege</RunLevel></Principal></Principals>" =
      tagged (js "RunLevel", js "LeastPrivilege") ++ (tagged (47 :: js "RunLevel", []) ++
        (tagged (47 :: js "Principal", []) ++ tagged (47 :: js "Principals", []))) := by
    decide +kernel
  have hpolicy :
      js "<Settings><MultipleInstancesPolicy>IgnoreNew</MultipleInstancesPolicy>" =
      tagged (js "Settings", []) ++ (tagged (js "MultipleInstancesPolicy", js "IgnoreNew") ++
        tagged (47 :: js "MultipleInstancesPolicy", [])) := by decide +kernel
  have hrestart :
      js "<RestartOnFailure><Interval>PT1M</Interval><Count>3</Count></RestartOnFailure>" =
      tagged (js "RestartOnFailure", []) ++ (tagged (js "Interval", js "PT1M") ++
        (tagged (47 :: js "Interval", []) ++ (tagged (js "Count", js "3") ++
          (tagged (47 :: js "Count", []) ++ tagged (47 :: js "RestartOnFailure", []))))) := by
    decide +kernel
  have hlimit : js "<ExecutionTimeLimit>PT0S</ExecutionTimeLimit></Settings>" =
      tagged (js "ExecutionTimeLimit", js "PT0S") ++ (tagged (47 :: js "ExecutionTimeLimit", []) ++
        tagged (47 :: js "Settings", [])) := by decide +kernel
  have hcommand : js "<Actions Context=\"Author\"><Exec><Command>" =
      tagged (js "Actions" ++ js " Context=\"Author\"", []) ++ (tagged (js "Exec", []) ++
        tagged (js "Command", [])) := by decide +kernel
  have hcommandEnd : js "</Command>" = tagged (47 :: js "Command", []) := by decide +kernel
  have harguments : js "<Arguments>" = tagged (js "Arguments", []) := by decide +kernel
  have hargumentsEnd : js "</Arguments>" = tagged (47 :: js "Arguments", []) := by decide +kernel
  have hdirectory : js "<WorkingDirectory>" = tagged (js "WorkingDirectory", []) := by
    decide +kernel
  have hend : js "</WorkingDirectory></Exec></Actions></Task>" =
      tagged (47 :: js "WorkingDirectory", []) ++ (tagged (47 :: js "Exec", []) ++
        (tagged (47 :: js "Actions", []) ++ tagged (47 :: js "Task", []))) := by decide +kernel
  rw [scheduledTask, List.flatten_cons, List.flatten_cons, ← List.append_assoc, hdeclaration,
    htriggers, hprincipals, hlevel, hpolicy, hrestart, hlimit, hcommand, hcommandEnd, harguments,
    hargumentsEnd, hdirectory, hend]
  simp only [documentParts, taskForest, Forest.parts, htext (js "Command") node,
    htext (js "Arguments") (windowsArguments args), htext (js "WorkingDirectory") root,
    List.flatMap_cons, List.flatMap_nil, List.flatten_cons, List.flatten_nil, List.append_assoc,
    List.cons_append, List.nil_append, List.append_nil]

theorem named_taskForest (command arguments root : JsString) :
    (Forest.element (js "Task") taskAttributes [] (taskForest command arguments root)
      .nil).named = true := by
  have hblank : (Forest.element (js "Task") taskAttributes [] (taskForest [] [] []) .nil).named =
      true := by rfl
  exact hblank

/-- **The task** is read back up to the arguments in one text. -/
theorem readTask_eq (root node : JsString) (args : List JsString) :
    readTask (scheduledTask root node args) =
      some ⟨node :: Windows.splitArguments (windowsArguments args), root, none⟩ := by
  have hprolog : ∀ part ∈ [(xmlDeclaration, ([] : JsString))], isDeclaration part.1 = true := by
    simp only [List.mem_singleton, forall_eq]
    rfl
  have helements := elements_document unescape_xml bracket_notMem_xml [] hprolog
    (named_taskForest node (windowsArguments args) root)
  rw [readTask, scheduledTask_eq]
  refine (congrArg (fun found ↦ found >>= _) helements).trans ?_
  rfl

/-! ## All platforms -/

/-- The option in front of the data directory is read as it is written on every platform. -/
def dataDirOption : { option : JsString //
    10 ∉ option ∧ plainArgument option = true ∧ keepsSlashes option = true } :=
  ⟨js "--data-dir", by decide +kernel⟩

section

variable (host : ServiceHost) (options : ServiceInstallOptions)

/-- The platform that a service is rendered for. -/
def servicePlatform : ServicePlatform := options.platform.getD host.platform

/-- How the service is meant to be started. A task has no environment. -/
def intendedStart : ServiceStart where
  arguments := [options.node host, options.launcher host, js "--data-dir", options.dataDir]
  workingDirectory := options.root
  dataDir := if servicePlatform host options = .win32 then none else some options.dataDir

/-- A rendered definition gives back how the service is meant to be started, whatever specifiers and
variables stand for. -/
def ReadsBack : Prop :=
  ∀ service, renderUserService host options = .ok service → ∀ expansion,
    readService expansion service.content (servicePlatform host options) =
      some (intendedStart host options)

/-- Nothing in the paths is expanded by systemd or meets a quote in a command line of Windows. -/
def isUnaffected : Bool :=
  match servicePlatform host options with
  | .linux =>
    withoutSpecifiers options.root && withoutSpecifiers options.dataDir &&
      plainProgram (options.node host) && plainArgument (options.launcher host) &&
      plainArgument options.dataDir
  | .win32 => keepsSlashes (options.launcher host) && keepsSlashes options.dataDir
  | _ => true

/-- Neither NUL nor a line break is in a path. -/
def isOneLine (path : JsString) : Bool := path.all fun u ↦ u ≠ 0 && u ≠ 10 && u ≠ 13

variable {host options}

theorem lineFeed_notMem {path : JsString} (h : isOneLine path = true) : 10 ∉ path := by
  rw [isOneLine, List.all_eq_true] at h
  exact fun hmem ↦ by simpa using h 10 hmem

/-- There is one definition to read. -/
theorem readsBack_iff_of_rendered {service : RenderedService}
    (h : renderUserService host options = .ok service) :
    ReadsBack host options ↔ ∀ expansion,
      readService expansion service.content (servicePlatform host options) =
        some (intendedStart host options) := by
  refine ⟨fun hreads ↦ hreads service h, fun hreads other hother ↦ ?_⟩
  rw [h] at hother
  exact Except.ok.inj hother ▸ hreads

/-- **`renderUserService`** writes a definition that is read back just when nothing in the paths is
special to the rules it is read by. -/
theorem readsBack_iff (h : ∀ path ∈ [options.node host, options.launcher host, options.root,
    options.dataDir], isOneLine path = true) :
    ReadsBack host options ↔ isUnaffected host options = true := by
  simp only [List.mem_cons, List.not_mem_nil, or_false, forall_eq_or_imp, forall_eq] at h
  obtain ⟨hnode, hlauncher, hroot, hdataDir⟩ := h
  rcases hplatform : servicePlatform host options with _ | _ | _ | name
  · -- every setting of the unit is expanded
    have hcommand : ∀ value ∈ [options.node host, options.launcher host, js "--data-dir",
        options.dataDir], 10 ∉ value := by
      simp only [List.mem_cons, List.not_mem_nil, or_false, forall_eq_or_imp, forall_eq]
      exact ⟨lineFeed_notMem hnode, lineFeed_notMem hlauncher, dataDirOption.2.1,
        lineFeed_notMem hdataDir⟩
    have hoption : plainArgument (js "--data-dir") = true := dataDirOption.2.2.1
    have hunit := readUnit_iff (lineFeed_notMem hroot) (lineFeed_notMem hdataDir) hcommand
    have hrender := renderUserService.eq_1 host options
    rw [show options.platform.getD host.platform = .linux from hplatform] at hrender
    rw [readsBack_iff_of_rendered hrender, isUnaffected, hplatform, intendedStart, hplatform]
    refine hunit.trans ?_
    simp [hoption, and_assoc]
  · -- nothing is expanded in a property list
    have hrender := renderUserService.eq_1 host options
    rw [show options.platform.getD host.platform = .darwin from hplatform] at hrender
    rw [readsBack_iff_of_rendered hrender, isUnaffected, hplatform, intendedStart, hplatform]
    exact ⟨fun _ ↦ rfl, fun _ _ ↦ readPropertyList_eq _ _ _ _ _ _⟩
  · -- the arguments of a task are split
    have hrender := renderUserService.eq_1 host options
    rw [show options.platform.getD host.platform = .win32 from hplatform] at hrender
    have hoption : keepsSlashes (js "--data-dir") = true := dataDirOption.2.2.2
    have hsplit := splitArguments_windowsArguments_iff (options.launcher host)
      [js "--data-dir", options.dataDir]
    rw [readsBack_iff_of_rendered hrender, isUnaffected, hplatform, intendedStart, hplatform]
    refine Iff.trans ⟨fun hreads ↦ ?_, fun hargs expansion ↦ ?_⟩ (hsplit.trans ?_)
    · have hread := hreads ⟨fun _ ↦ [], fun _ ↦ none⟩
      rw [readService, readTask_eq] at hread
      exact (List.cons.inj (ServiceStart.mk.inj (Option.some.inj hread)).1).2
    · rw [readService, readTask_eq, hargs]
      rfl
    · simp [hoption]
  · -- no definition is rendered
    have hrender := renderUserService.eq_1 host options
    rw [show options.platform.getD host.platform = .other name from hplatform] at hrender
    rw [isUnaffected, hplatform]
    exact ⟨fun _ ↦ rfl, fun _ service hservice ↦ absurd (hrender.symm.trans hservice) (by simp)⟩

end

/-- A machine of a platform, where paths are put together with slashes. -/
def exampleHost (platform : ServicePlatform) : ServiceHost where
  platform
  execPath := js "/usr/bin/node"
  homedir := js "/home/user"
  getuid := some 1000
  join := fun parts ↦ [47].intercalate parts

theorem readsBack_spaces :
    ReadsBack (exampleHost .linux)
      { root := js "/opt/lite harness", dataDir := js "/home/user/\"a\" & 50%/b\\" } :=
  (readsBack_iff (by decide +kernel)).mpr (by decide +kernel)

/-- A backslash at the end of the data directory takes the closing quote away. -/
theorem not_readsBack : ¬∀ host options,
    (∀ path ∈ [options.node host, options.launcher host, options.root, options.dataDir],
      isOneLine path = true) → ReadsBack host options := by
  intro h
  have hreads := h (exampleHost .win32)
    { root := js "C:\\lite", dataDir := js "C:\\data\\", nodePath := some (js "C:\\node.exe") }
    (by decide +kernel) _ rfl ⟨fun _ ↦ [], fun _ ↦ none⟩
  rw [servicePlatform, Option.getD_none] at hreads
  have hread := (readTask_eq _ _ _).symm.trans hreads
  have harguments := (List.cons.inj (ServiceStart.mk.inj (Option.some.inj hread)).1).2
  have hkeeps := (splitArguments_windowsArguments_iff _ _).mp harguments
  exact absurd (hkeeps (js "C:\\data\\") (by simp)) (by decide +kernel)

end LiteHarness.Operations

import LiteHarness.Platform.CommandLineToArgv
import LiteHarness.Platform.Systemd
import LiteHarness.Platform.Xml

/-!
# The user service

`renderUserService` writes the definition of the service for the service manager of a platform: a
systemd unit, a property list for launchd or a task for the Windows Task Scheduler. Paths are put
into it by an escaper for each format. A definition is read back by the rules of the platform, which
are about quotes, expansion and entities (`readService`).
-/

namespace LiteHarness.Operations

inductive ServicePlatform where
  | linux
  | darwin
  | win32
  | other (name : JsString)
  deriving DecidableEq

structure ServiceInstallOptions where
  root : JsString
  dataDir : JsString
  launcherPath : Option JsString := none
  nodePath : Option JsString := none
  platform : Option ServicePlatform := none
  home : Option JsString := none

/-- What `node:process`, `node:os` and `node:path` say of the machine. -/
structure ServiceHost where
  platform : ServicePlatform
  execPath : JsString
  homedir : JsString
  getuid : Option ℕ
  join : List JsString → JsString

structure RenderedService where
  path : JsString
  content : JsString
  command : JsString
  args : List JsString
  deriving DecidableEq

def serviceId : JsString := js "dev.lite-harness"

/-! ## Escaping -/

/-- `text.replaceAll(u, replacement)` for a text of one unit. -/
def replaceAll (u : UInt16) (replacement text : JsString) : JsString :=
  text.flatMap fun v ↦ if v = u then replacement else [v]

def systemdValue (value : JsString) : JsString :=
  34 :: (replaceAll 34 [92, 34] (replaceAll 92 [92, 92] value) ++ [34])

def systemdCommand (command : JsString) (args : List JsString) : JsString :=
  [32].intercalate ((command :: args).map systemdValue)

def windowsArguments (args : List JsString) : JsString :=
  [32].intercalate (args.map fun value ↦ 34 :: (replaceAll 34 [92, 34] value ++ [34]))

def xml (value : JsString) : JsString :=
  replaceAll 34 (js "&quot;") (replaceAll 62 (js "&gt;") (replaceAll 60 (js "&lt;")
    (replaceAll 38 (js "&amp;") value)))

/-- No backslash stands in front of a quote or at the end. -/
def keepsSlashes : JsString → Bool
  | [] => true
  | u :: text => (u ≠ 92 || text.head?.any (· ≠ 34)) && keepsSlashes text

/-! ## The definitions -/

def systemdUnit (root dataDir node : JsString) (args : List JsString) : JsString :=
  [js "[Unit]\nDescription=Lite-Harness local agent service\nAfter=docker.service\n\n",
    js "[Service]\nType=simple\nWorkingDirectory=", systemdValue root,
    js "\nEnvironment=", systemdValue (js "LITE_HARNESS_DATA_DIR=" ++ dataDir),
    js "\nExecStart=", systemdCommand node args,
    js "\nRestart=on-failure\nRestartSec=3\nNoNewPrivileges=true\n\n",
    js "[Install]\nWantedBy=default.target\n"].flatten

def propertyList (root dataDir node : JsString) (args : List JsString) : JsString :=
  [js "<?xml version=\"1.0\" encoding=\"UTF-8\"?>\n",
    js "<!DOCTYPE plist PUBLIC \"-//Apple//DTD PLIST 1.0//EN\" ",
    js "\"http://www.apple.com/DTDs/PropertyList-1.0.dtd\">\n",
    js "<plist version=\"1.0\"><dict><key>Label</key><string>", serviceId, js "</string>",
    js "<key>ProgramArguments</key><array>",
    ((node :: args).map fun value ↦ js "<string>" ++ (xml value ++ js "</string>")).flatten,
    js "</array><key>WorkingDirectory</key><string>", xml root, js "</string>",
    js "<key>EnvironmentVariables</key><dict><key>LITE_HARNESS_DATA_DIR</key><string>",
    xml dataDir, js "</string></dict><key>RunAtLoad</key><true/><key>KeepAlive</key>",
    js "<dict><key>SuccessfulExit</key><false/></dict></dict></plist>\n"].flatten

def scheduledTask (root node : JsString) (args : List JsString) : JsString :=
  [js "<?xml version=\"1.0\" encoding=\"UTF-8\"?><Task version=\"1.4\" ",
    js "xmlns=\"http://schemas.microsoft.com/windows/2004/02/mit/task\">",
    js "<Triggers><LogonTrigger><Enabled>true</Enabled></LogonTrigger></Triggers>",
    js "<Principals><Principal id=\"Author\"><LogonType>InteractiveToken</LogonType>",
    js "<RunLevel>LeastPrivilege</RunLevel></Principal></Principals>",
    js "<Settings><MultipleInstancesPolicy>IgnoreNew</MultipleInstancesPolicy>",
    js "<RestartOnFailure><Interval>PT1M</Interval><Count>3</Count></RestartOnFailure>",
    js "<ExecutionTimeLimit>PT0S</ExecutionTimeLimit></Settings>",
    js "<Actions Context=\"Author\"><Exec><Command>", xml node, js "</Command>",
    js "<Arguments>", xml (windowsArguments args), js "</Arguments>",
    js "<WorkingDirectory>", xml root,
    js "</WorkingDirectory></Exec></Actions></Task>"].flatten

namespace ServiceInstallOptions

variable (options : ServiceInstallOptions) (host : ServiceHost)

def node : JsString := options.nodePath.getD host.execPath

def launcher : JsString :=
  options.launcherPath.getD
    (host.join [options.root, js "dist", js "apps", js "launcher", js "main.js"])

end ServiceInstallOptions

/-- `renderUserService`. -/
def renderUserService (host : ServiceHost) (options : ServiceInstallOptions) :
    Except JsString RenderedService :=
  let home := options.home.getD host.homedir
  let node := options.node host
  let args := [options.launcher host, js "--data-dir", options.dataDir]
  match options.platform.getD host.platform with
  | .linux => .ok
    { path := host.join [home, js ".config", js "systemd", js "user", js "lite-harness.service"]
      content := systemdUnit options.root options.dataDir node args
      command := js "systemctl"
      args := [js "--user", js "enable", js "--now", js "lite-harness.service"] }
  | .darwin =>
    let path := host.join [home, js "Library", js "LaunchAgents", serviceId ++ js ".plist"]
    .ok
      { path
        content := propertyList options.root options.dataDir node args
        command := js "launchctl"
        args := [js "bootstrap", js "gui/" ++ decimal (host.getuid.getD 0), path] }
  | .win32 =>
    let path := host.join [options.dataDir, js "lite-harness-task.xml"]
    .ok
      { path
        content := scheduledTask options.root node args
        command := js "schtasks.exe"
        args := [js "/Create", js "/TN", js "Lite-Harness", js "/XML", path, js "/F"] }
  | .other name => .error (js "Unsupported service platform: " ++ name)

/-! ## Reading back -/

/-- How a service is started. -/
structure ServiceStart where
  arguments : List JsString
  workingDirectory : JsString
  dataDir : Option JsString
  deriving DecidableEq

/-- What specifiers and variables stand for. -/
structure Expansion where
  specifiers : UInt16 → JsString
  environment : JsString → Option JsString

section

open Systemd Xml

def dataDirVariable : JsString := js "LITE_HARNESS_DATA_DIR"

def readUnit (expansion : Expansion) (content : JsString) : Option ServiceStart := do
  let arguments ← (setting (js "ExecStart") content).bind
    (commandLine expansion.specifiers expansion.environment)
  let workingDirectory ← (setting (js "WorkingDirectory") content).bind
    (directory expansion.specifiers)
  let dataDir ← (setting (js "Environment") content).bind
    (environment expansion.specifiers dataDirVariable)
  some ⟨arguments, workingDirectory, some dataDir⟩

def readPropertyList (content : JsString) : Option ServiceStart := do
  let found ← elements content
  let dict := [js "dict", js "plist"]
  let workingDirectory ←
    (textsAt (js "string" :: dict) (entry dict (js "WorkingDirectory") found)).head?
  let inner := entry (js "dict" :: dict) dataDirVariable
    (entry dict (js "EnvironmentVariables") found)
  some
    { arguments := textsAt (js "string" :: js "array" :: dict)
        (entry dict (js "ProgramArguments") found)
      workingDirectory
      dataDir := (textsAt (js "string" :: js "dict" :: dict) inner).head? }

def readTask (content : JsString) : Option ServiceStart := do
  let found ← elements content
  let exec := [js "Exec", js "Actions", js "Task"]
  let command ← (textsAt (js "Command" :: exec) found).head?
  let arguments ← (textsAt (js "Arguments" :: exec) found).head?
  let workingDirectory ← (textsAt (js "WorkingDirectory" :: exec) found).head?
  some ⟨command :: Windows.splitArguments arguments, workingDirectory, none⟩

end

/-- A definition, read by the rules of its platform. -/
def readService (expansion : Expansion) (content : JsString) :
    ServicePlatform → Option ServiceStart
  | .linux => readUnit expansion content
  | .darwin => readPropertyList content
  | .win32 => readTask content
  | .other _ => none

end LiteHarness.Operations

import ScriptAudit.Catalog.Entries

namespace ScriptAudit

/-- A built-in category. -/
structure Pack where
  name : String
  /-- The place of the category in the default catalog. -/
  order : Nat
  rules : List Draft

namespace Pack

/-- A draft in which everything is given. -/
def draft (pattern title description : String) (severity : Severity) (suggestion : String) : Draft where
  pattern := .value (.text pattern)
  title := .text title
  description := .text description
  severity := .text severity.name
  suggestion := .text suggestion

def playerExploits : Pack where
  name := "playerExploits"
  order := 10
  rules := [
    draft "SetPlayerModel|GetHashKey|RequestModel"
      "Player model manipulation"
      "Player model changes without validation" .medium
      ("Create a whitelist of allowed models and validate model changes server-side. Example: if " ++
       "Config.AllowedModels[modelHash] then"),
    draft "SetPlayerInvincible|SetPlayerControl"
      "Player state manipulation"
      "Player state changes without server validation" .high
      "Move state changes server-side and implement periodic state verification checks",
    draft "GiveWeaponToPed|RemoveWeaponFromPed|SetPedAmmo"
      "Weapon manipulation"
      "Weapon changes without proper validation" .high
      ("Use server-side weapon management and implement ammo tracking. Example: if " ++
       "IsWeaponAllowed(weaponHash) and CheckAmmoLimit(ammo) then")]

def vehicleExploits : Pack where
  name := "vehicleExploits"
  order := 20
  rules := [
    draft "SetVehicleEngineOn|SetVehicleDoorOpen"
      "Vehicle property manipulation"
      "Vehicle property changes without validation" .medium
      ("Verify vehicle ownership and implement cooldowns on vehicle modifications. Example: if " ++
       "IsVehicleOwnedBy(vehicle, source) and CheckCooldown(source) then"),
    draft "SetVehicleEngineHealth|SetVehicleBodyHealth"
      "Vehicle health manipulation"
      "Vehicle health changes without validation" .medium
      ("Add server-side health validation and gradual health change checks. Example: if " ++
       "IsHealthChangeValid(currentHealth, newHealth) then")]

def resourceManipulation : Pack where
  name := "resourceManipulation"
  order := 30
  rules := [
    draft "StopResource|StartResource|RestartResource"
      "Resource control manipulation"
      "Resource control without proper permissions" .critical
      ("Restrict resource control to high-level ACE permissions only. Example: if " ++
       "IsPlayerAceAllowed(source, 'command.resources') then"),
    draft "LoadResourceFile|SaveResourceFile"
      "Resource file manipulation"
      "Resource file access without proper validation" .high
      ("Implement strict file access controls and path validation. Example: if IsPathSafe(path) and " ++
       "IsFileOperationAllowed(source) then")]

def eventSystem : Pack where
  name := "eventSystem"
  order := 40
  rules := [
    draft "RegisterNetEvent|RegisterServerEvent"
      "Unprotected event registration"
      "Event registration without proper validation" .high
      ("Use prefix naming conventions and implement event handlers with proper validation. Example: " ++
       "AddEventHandler('prefix:eventName', function(data) if ValidateEventData(data) then"),
    draft "TriggerEvent|TriggerServerEvent"
      "Unprotected event trigger"
      "Event triggering without proper validation" .high
      ("Add rate limiting, data validation, and event logging. Example: if not IsPlayerRateLimited(source) " ++
       "and ValidateEventData(data) then")]

def antiCheatBypass : Pack where
  name := "antiCheatBypass"
  order := 50
  rules := [
    draft "SetEntityVisible|SetEntityAlpha"
      "Visibility manipulation"
      "Entity visibility changes without validation" .high
      ("Implement server-side visibility verification and periodic checks. Example: " ++
       "CreateThread(function() while true do VerifyEntityVisibility() Wait(1000) end end)"),
    draft "SetRunSprintMultiplier|SetSwimMultiplier"
      "Movement speed manipulation"
      "Player movement speed changes without validation" .high
      ("Add speed monitoring and position validation server-side. Example: if not " ++
       "IsPlayerSpeedValid(source, speed) then HandleCheatDetection(source) end")]

def performanceIssues : Pack where
  name := "performanceIssues"
  order := 60
  rules := [
    -- A call of Wait further on hides the loop, up to the next brace.
    draft "while\\s+true\\s+do(?![^\x7b]*Wait\\()"
      "Infinite loop detected"
      "Infinite loop without Wait() function" .high
      ("Always include Wait() in loops and implement loop breaking conditions. Example: while true do -- " ++
       "code here Citizen.Wait(0) if shouldBreak then break end end"),
    draft "GetActivePlayers|GetGamePool"
      "Resource intensive operation"
      "Performance heavy operation without caching" .medium
      ("Cache results and implement cooldowns between operations. Example: local cachedPlayers = \x7b\x7d " ++
       "local lastUpdate = 0 -- Update cache periodically")]

def debugging : Pack where
  name := "debugging"
  order := 70
  rules := [
    draft "print\\s*\\(|Citizen\\.Trace"
      "Debug output detected"
      "Debug output in production code" .low
      ("Replace with proper logging system. Example: if Config.Debug then exports['logging']:Log(message, " ++
       "level) end")]

def nuiExploitation : Pack where
  name := "nuiExploitation"
  order := 80
  rules := [
    draft "SendNUIMessage|RegisterNUICallback"
      "Unprotected NUI interaction"
      "NUI interaction without proper validation" .medium
      ("Validate all NUI data and implement request limiting. Example: RegisterNUICallback('action', " ++
       "function(data, cb) if ValidateNUIData(data) then")]

def dynamicExecution : Pack where
  name := "dynamicExecution"
  order := 90
  rules := [
    -- The word boundary keeps out names that end in load.
    draft "\\b(?:loadstring|load)\\s*\\("
      "Dynamic code execution"
      "Runtime compilation of code that may come from a client or remote source" .critical
      ("Never compile code received at runtime. Replace load()/loadstring() with a fixed dispatch table of " ++
       "allowed actions. Example: local action = Actions[name] if action then action(data) end"),
    draft "ExecuteCommand\\s*\\([^)\\n]*\\.\\."
      "Command built from input"
      "Console command assembled by string concatenation" .high
      ("Avoid building commands from player data. Validate arguments against an allow-list and check ACE " ++
       "permissions before ExecuteCommand.")]

def databaseAccess : Pack where
  name := "databaseAccess"
  order := 100
  rules := [
    { draft
        ("(?:mysql\\.(?:async|sync)\\.\\w+|exports\\.oxmysql[:.]\\w+|MySQL\\.\\w+(?:\\.await)?)" ++
         "\\s*\\(\\s*['\\\"][^'\\\"\\n]*['\\\"]\\s*\\.\\.")
        "SQL query built by concatenation"
        "Database query text concatenated with variables, open to SQL injection" .high
        ("Use parameterized queries. Example: " ++
         "MySQL.query('SELECT * FROM users WHERE identifier = ?', \x7b identifier \x7d)")
      with flags := .text "i" }]

/-- The packs as they are found: those about players, those about quality and those about servers. -/
def found : List Pack :=
  [antiCheatBypass, playerExploits, vehicleExploits, debugging, performanceIssues, databaseAccess,
   dynamicExecution, eventSystem, nuiExploitation, resourceManipulation]

/-- Whether a pack may stand before another: by their places, and at the same place by their names. -/
def precedes (p q : Pack) : Bool := p.order < q.order || (p.order == q.order && !decide (q.name < p.name))

/-- Puts a pack before the first one that it may stand before. -/
def place (p : Pack) : List Pack → List Pack
  | [] => [p]
  | q :: rest => if p.precedes q then p :: q :: rest else q :: place p rest

/-- The built-in packs in order. -/
def builtin : List Pack := found.foldr place []

theorem builtin_eq :
    builtin = [playerExploits, vehicleExploits, resourceManipulation, eventSystem, antiCheatBypass,
      performanceIssues, debugging, nuiExploitation, dynamicExecution, databaseAccess] := rfl

/-- Text without white space around it, in lower case; nothing given means all. -/
def selectorKey (selector : Option String) : String :=
  match selector with
  | none => "all"
  | some s => if s.isEmpty then "all" else Text.lower (Text.trim s)

def selectsAll (key : String) : Bool := key == "all" || key == "*"

/-- The packs that a comma-separated list of names asks for. -/
def select (packs : List Pack) (selector : Option String) : List Pack :=
  let key := selectorKey selector
  if selectsAll key then packs
  else
    let wanted := Text.listed key
    packs.filter fun p => wanted.contains (Text.lower p.name)

def toEntry (p : Pack) : CatalogEntry := ⟨.text p.name, .list (p.rules.map .draft)⟩

end Pack

/-- The built-in rules, or some categories of them. -/
def Catalog.builtin (selector : Option String) : Except CatalogFailure Catalog :=
  Catalog.ofEntries ((Pack.select Pack.builtin selector).map Pack.toEntry)

end ScriptAudit

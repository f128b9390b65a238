import BadmintonRobot.General.Keyboard
import BadmintonRobot.Semantics.Run

/-!
# The menu

The menus are arrays of eight entries that point to one another. A key goes down into a menu, back to
the menu above, or calls a function, and then the current menu is shown. Three things are wrong: the
key 9 selects an entry behind the array, the array `My_Pro` has seven initialisers, so that its last
entry has no name, and an entry of `M_liwenlin` is a function entry without a function.

What the functions do is left out; none of them changes `CurrentMenu`. A byte that is no key number
is ignored, as `empty1` is.
-/

namespace BadmintonRobot.Screen

open General Semantics

/-- The arrays of `m_list.c`. -/
inductive Menu where
  | mainMenu | myPro | mSystem | mTest | mRoute | mSD | mFxh | mLaser | mLiwenlin
deriving DecidableEq, Repr

/-- `enum M_AttribType`. -/
inductive Attrib where
  | mEmpty
  | mUFunc
  | mSMenu
deriving DecidableEq, Repr

/-- The functions in the menus. -/
inductive Func where
  | textCatch | recKinPrint | sysTimer | findHandleKey | goRoute | lookIt | rotatePID
  | sysGyro | sysEncoder | sysGPS | sysSwedish | sysSAST | sysCAN | sysHandle | sysFan
  | dataBackTest | cameraTest | laserTest | hallTest | lBTest | sonicTest | radarTest | owenTest
  | goLineTest | keepTest | goCircleTest | routeTest | armTest | motorPos
  | sysImgSave | sDReInit | sDWalkground
  | sysKeep | sysDebug | sysSonic | sysMisc | sysLb | sysLssp | sysLswg
  | upMotor | cylinder | saSt | key
deriving DecidableEq, Repr

/-- A pointer to an entry of an array. -/
structure Pointer where
  menu : Menu
  index : Nat
deriving DecidableEq, Repr

/-- The pointer that the name of an array stands for. -/
def Menu.first (menu : Menu) : Pointer := ⟨menu, 0⟩

/-- `struct M_Type`. A pointer without a value is `NULL`. -/
structure Item where
  name : Option String
  attrib : Attrib
  menuFunc : Option Func
  prev : Option Pointer
  next : Option Pointer
deriving DecidableEq, Repr

namespace Item

/-- An entry that the initialiser leaves out. -/
def zero : Item := ⟨none, .mEmpty, none, none, none⟩

def func (name : String) (menuFunc : Func) (prev : Menu) : Item :=
  ⟨some name, .mUFunc, some menuFunc, some prev.first, none⟩

def sub (name : String) (prev next : Menu) : Item :=
  ⟨some name, .mSMenu, none, some prev.first, some next.first⟩

def blank (prev : Menu) : Item := ⟨some " ", .mEmpty, none, some prev.first, none⟩

end Item

open Item in
/-- The initialisers of `m_list.c`. -/
def Menu.initialiser : Menu → List Item
  | mainMenu =>
    [ sub "1.System" mainMenu mSystem, sub "2.Test" mainMenu mTest, sub "3.Route" mainMenu mRoute,
      sub "4.SD" mainMenu mSD, sub "5.MY_PRO" mainMenu myPro, sub "6.liwenlin" mainMenu mLiwenlin,
      blank mainMenu, blank mainMenu ]
  | myPro =>
    [ func "1.Catching" .textCatch mainMenu, func "2.RecKin_Print" .recKinPrint mainMenu,
      func "3.Syn_Timer " .sysTimer mainMenu, func "4.Find_Handle_Key" .findHandleKey mainMenu,
      func "6.GoRoute" .goRoute mainMenu, func "7.LookIt" .lookIt mainMenu,
      func "8.RPID" .rotatePID mainMenu ]
  | mSystem =>
    [ func "1.Gyro" .sysGyro mainMenu, func "2.Encoder" .sysEncoder mainMenu,
      func "3.GPS" .sysGPS mainMenu, func "4.Swedish" .sysSwedish mainMenu,
      func "5.SA-ST" .sysSAST mainMenu, func "6.CAN" .sysCAN mainMenu,
      func "7.Handle" .sysHandle mainMenu, func "8.fan" .sysFan mainMenu ]
  | mTest =>
    [ func "1.DataBack" .dataBackTest mainMenu, func "2.Camera " .cameraTest mainMenu,
      func "3.Laser" .laserTest mainMenu, func "4.Hall" .hallTest mainMenu,
      func "5.LB" .lBTest mainMenu, func "6.Sonic" .sonicTest mainMenu,
      func "7.Radar" .radarTest mainMenu, func "8.owen" .owenTest mainMenu ]
  | mRoute =>
    [ func "1.GoLine" .goLineTest mainMenu, func "2.Keep" .keepTest mainMenu,
      func "3.GoCircle" .goCircleTest mainMenu, func "4.RouteTest" .routeTest mainMenu,
      func "5.ArmTest" .armTest mainMenu, func "6.MotorPos " .motorPos mainMenu,
      blank mainMenu, blank mainMenu ]
  | mSD =>
    [ func "1.Img" .sysImgSave mainMenu, func "2.ReInit" .sDReInit mainMenu,
      func "3.WalkGRD" .sDWalkground mainMenu, blank mainMenu, blank mainMenu, blank mainMenu,
      blank mainMenu, blank mainMenu ]
  | mFxh =>
    [ sub "1.laser" mainMenu mLaser, func "2.keep" .sysKeep mainMenu,
      func "3.debug" .sysDebug mainMenu, func "4.sonic" .sysSonic mainMenu,
      func "5.misc" .sysMisc mainMenu, func "6.lb" .sysLb mainMenu,
      blank mainMenu, blank mainMenu ]
  | mLaser =>
    [ func "1.lssp" .sysLssp mFxh, func "2.lswg" .sysLswg mFxh, blank mFxh, blank mFxh, blank mFxh,
      blank mFxh, blank mFxh, blank mFxh ]
  | mLiwenlin =>
    [ func "1.upmotors" .upMotor mainMenu, func "2.cylinder" .cylinder mainMenu,
      func "3.sa-st " .saSt mainMenu,
      ⟨some "4.stepper ", .mUFunc, none, some mainMenu.first, none⟩,
      ⟨some "5.st ", .mEmpty, none, some mainMenu.first, none⟩,
      func "6.key" .key mainMenu, blank mainMenu, blank mainMenu ]

/-- `M_NUM`. -/
def mNum : Nat := 8

/-- What goes wrong. -/
inductive Fault where
  | outside
  | nullMenu
  | nullFunc
  | nullName
deriving DecidableEq, Repr

/-- An entry of an array. What an initialiser leaves out is zero. -/
def Pointer.read (p : Pointer) : Except Fault Item :=
  if p.index < mNum then .ok (p.menu.initialiser.getD p.index .zero) else .error .outside

/-- The entry at an offset from `CurrentMenu`. -/
def readAt (currentMenu : Option Pointer) (offset : Nat) : Except Fault Item :=
  match currentMenu with
  | none => .error .nullMenu
  | some p => Pointer.read ⟨p.menu, p.index + offset⟩

/-- The function `ShowMenuList`: the names that it prints, column by column. -/
def showMenuList (currentMenu : Option Pointer) : Except Fault (List String) :=
  (List.range mNum).mapM fun offset => do
    let item ← readAt currentMenu offset
    match item.name with
    | none => throw .nullName
    | some name => return name

/-- The function `GoKeyNum`: `CurrentMenu` after it. -/
def goKeyNum (keyNum : Nat) (currentMenu : Option Pointer) : Except Fault (Option Pointer) := do
  let item ← readAt currentMenu (keyNum - 1)
  match item.attrib with
  | .mSMenu => return item.next
  | .mUFunc =>
    match item.menuFunc with
    | none => throw .nullFunc
    | some _ => return currentMenu
  | .mEmpty => return currentMenu

/-- The case of the key `keyback`. -/
def goBack (currentMenu : Option Pointer) : Except Fault (Option Pointer) :=
  if currentMenu ≠ some Menu.mainMenu.first then do
    let item ← readAt currentMenu 0
    return item.prev
  else .ok currentMenu

/-- The `switch` of `KeyNumOperate`. -/
def select (currentMenu : Option Pointer) : Key → Except Fault (Option Pointer)
  | .key1 => goKeyNum 1 currentMenu
  | .key2 => goKeyNum 2 currentMenu
  | .key3 => goKeyNum 3 currentMenu
  | .key4 => goKeyNum 4 currentMenu
  | .keyback => goBack currentMenu
  | .key5 => goKeyNum 5 currentMenu
  | .key6 => goKeyNum 6 currentMenu
  | .key7 => goKeyNum 7 currentMenu
  | .key8 => goKeyNum 8 currentMenu
  | .key9 => goKeyNum 9 currentMenu
  | _ => .ok currentMenu

/-- The function `KeyNumOperate`. -/
def keyNumOperate (currentMenu : Option Pointer) (keyValue : Key) :
    Except Fault (Option Pointer) := do
  let next ← select currentMenu keyValue
  let _ ← showMenuList next
  return next

/-- One byte from the keyboard. The byte 6 goes to the emergency thread, which sets `CurrentMenu` and
shows it; the others go to `KeyNumOperate`. -/
def keyboard (currentMenu : Option Pointer) (keyValue : Key) : Except Fault (Option Pointer) :=
  if keyValue = .emergency then do
    let _ ← showMenuList (some Menu.mainMenu.first)
    return some Menu.mainMenu.first
  else keyNumOperate currentMenu keyValue

/-- The main menu is shown, and the keys are handled. -/
def navigate (keys : List Key) : Except Fault (Option Pointer) := do
  let _ ← showMenuList (some Menu.mainMenu.first)
  keys.foldlM keyboard (some Menu.mainMenu.first)

/-- Nothing is read outside of the arrays or through `NULL`, and `CurrentMenu` is always the first
entry of a menu. -/
def Navigable (keys : List Key) : Prop :=
  ∀ earlier later, keys = earlier ++ later → ∃ menu : Menu, navigate earlier = .ok (some menu.first)

/-- The menu that a key leads to, as the tables are meant. -/
def Menu.next : Menu → Key → Menu
  | _, .emergency => mainMenu
  | mainMenu, .key1 => mSystem
  | mainMenu, .key2 => mTest
  | mainMenu, .key3 => mRoute
  | mainMenu, .key4 => mSD
  | mainMenu, .key5 => myPro
  | mainMenu, .key6 => mLiwenlin
  | mFxh, .key1 => mLaser
  | mLaser, .keyback => mFxh
  | _, .keyback => mainMenu
  | menu, _ => menu

/-- The keys that do harm in a menu: the entry behind the array, the menu with an entry without a name,
and the entry without a function. -/
def Trap : Menu → Key → Prop
  | .mainMenu, key => key = .key9 ∨ key = .key5
  | .mLiwenlin, key => key = .key9 ∨ key = .key4
  | _, key => key = .key9

instance (menu : Menu) : DecidablePred (Trap menu) := by
  intro key
  cases menu <;> unfold Trap <;> infer_instance

theorem keyboard_of_trap (menu : Menu) (key : Key) (trap : Trap menu key) :
    ∃ fault, keyboard (some menu.first) key = .error fault := by
  cases menu
  case mainMenu => rcases trap with rfl | rfl <;> exact ⟨_, rfl⟩
  case mLiwenlin => rcases trap with rfl | rfl <;> exact ⟨_, rfl⟩
  all_goals
    cases trap
    exact ⟨_, rfl⟩

/-- Every key that is no trap leads from a menu that can be shown to one that can be shown. -/
theorem keyboard_of_not_trap (menu : Menu) (named : menu ≠ .myPro) (key : Key)
    (harmless : ¬ Trap menu key) :
    menu.next key ≠ .myPro ∧ keyboard (some menu.first) key = .ok (some (menu.next key).first) := by
  cases menu
  case myPro => exact absurd rfl named
  all_goals
    revert harmless
    cases key <;> first | exact fun _ => ⟨by decide, rfl⟩ | exact fun harmless => absurd (by decide) harmless

theorem navigate_nil : navigate [] = .ok (some Menu.mainMenu.first) := rfl

theorem navigate_snoc (keys : List Key) (key : Key) :
    navigate (keys ++ [key]) = (navigate keys).bind fun currentMenu => keyboard currentMenu key := by
  unfold navigate
  rw [List.foldlM_append]
  simp only [List.foldlM_cons, List.foldlM_nil]
  obtain ⟨names, shown⟩ : ∃ names, showMenuList (some Menu.mainMenu.first) = .ok names := ⟨_, rfl⟩
  rw [shown]
  simp only [bind, Except.bind, pure, Except.pure]
  cases keys.foldlM keyboard (some Menu.mainMenu.first) with
  | error fault => rfl
  | ok currentMenu =>
    dsimp only
    cases keyboard currentMenu key <;> rfl

/-- No key is pressed where it does harm. -/
def Harmless (keys : List Key) : Prop :=
  ∀ (earlier : List Key) key later, keys = earlier ++ key :: later →
    ¬ Trap (earlier.foldl Menu.next .mainMenu) key

theorem harmless_snoc (keys : List Key) (key : Key) :
    Harmless (keys ++ [key]) ↔ Harmless keys ∧ ¬ Trap (keys.foldl Menu.next .mainMenu) key :=
  forall_splits_snoc

/-- Without harm the keys lead where the tables are meant to lead. -/
theorem navigate_of_harmless (keys : List Key) (harmless : Harmless keys) :
    keys.foldl Menu.next .mainMenu ≠ .myPro ∧
      navigate keys = .ok (some (keys.foldl Menu.next .mainMenu).first) := by
  induction keys using List.reverseRecOn with
  | nil => exact ⟨by decide, navigate_nil⟩
  | append_singleton keys key hypothesis =>
    rw [harmless_snoc] at harmless
    obtain ⟨named, reached⟩ := hypothesis harmless.1
    obtain ⟨nextNamed, step⟩ := keyboard_of_not_trap _ named key harmless.2
    rw [navigate_snoc, reached, List.foldl_append]
    exact ⟨nextNamed, step⟩

theorem harmless_of_navigable (keys : List Key) (navigable : Navigable keys) : Harmless keys := by
  induction keys using List.reverseRecOn with
  | nil =>
    intro earlier key later split
    simp at split
  | append_singleton keys key hypothesis =>
    have before : Harmless keys := hypothesis fun earlier later split =>
      navigable earlier (later ++ [key]) (by rw [split, List.append_assoc])
    refine (harmless_snoc keys key).mpr ⟨before, fun trap => ?_⟩
    obtain ⟨fault, failed⟩ := keyboard_of_trap _ key trap
    obtain ⟨menu, reached⟩ := navigable (keys ++ [key]) [] (by simp)
    rw [navigate_snoc, (navigate_of_harmless keys before).2, Except.bind, failed] at reached
    exact nomatch reached

/-- The navigation is safe exactly without the keys that do harm, and then the menu is the one that
the tables are meant to lead to. -/
theorem navigable_iff (keys : List Key) :
    (Navigable keys ↔ Harmless keys) ∧
    (Navigable keys → navigate keys = .ok (some (keys.foldl Menu.next .mainMenu).first)) := by
  refine ⟨⟨harmless_of_navigable keys, fun harmless earlier later split => ?_⟩, fun navigable =>
    (navigate_of_harmless keys (harmless_of_navigable keys navigable)).2⟩
  have before : Harmless earlier := forall_splits_front split harmless
  exact ⟨_, (navigate_of_harmless earlier before).2⟩

/-- The key 5 in the main menu opens a menu whose last entry has no name. -/
theorem not_navigable_myPro : navigate [.key5] = .error .nullName ∧ ¬ Navigable [.key5] := by
  refine ⟨rfl, fun navigable => ?_⟩
  obtain ⟨menu, reached⟩ := navigable [.key5] [] rfl
  exact nomatch (show Except.error Fault.nullName = .ok (some menu.first) from reached)

end BadmintonRobot.Screen

import Mathlib.Logic.Relation
import Overworld.Play.Scenes

/-!
What playing can do to a session, one change at a time.

Within a scene a session changes by deeds and by frames; a scene is entered with a bare stage, which
fills by arrivals. Each deed says what it leaves of a session; where playing does it only under a
condition, `Allowed` says which, and `Scripted` says which deeds are those of events. Whatever holds
of every deed, frame, arrival and entry holds of whole runs (`Course`), so that no invariant has to
look at the events, the control or the scenes again.
-/

namespace Overworld

/-! ### What happened since the scene was entered -/

namespace Entry

/-- The events that were run since the last scene was entered, the last one first. -/
def current : List Entry → List Dispatch
  | .event d :: journal => d :: current journal
  | _ => []

/-- The name by which the last scene was entered. -/
def sceneName? : List Entry → Option String
  | .event _ :: journal => sceneName? journal
  | .scene name :: _ => some name
  | [] => none

end Entry

/-- The events that were run since the scene was entered, the last one first. -/
def Session.current (s : Session) : List Dispatch := Entry.current s.journal

/-! ### Changes of what the host shows or plays -/

/-- A change of the picture or the sound, which leaves the sprites where they are. -/
inductive Presentation where
  | alpha (strength : Float32)
  | camera (position : Pixel)
  | openDialog (text : String)
  | closeDialog
  | playMusic (music : Music)
  | musicVolume (volume : Float32)
  | stopMusic
  | playSound (sound : Sound)
  | picture (sprite : SpriteHandle) (frame : Nat)

/-- The host after a change of the picture or the sound. -/
def Presentation.apply (host : Host) : Presentation → Host
  | .alpha strength => host.setAlpha strength
  | .camera position => host.setCamera position
  | .openDialog text => host.openDialog text
  | .closeDialog => host.closeDialog
  | .playMusic music => host.playMusic music
  | .musicVolume volume => host.setMusicVolume volume
  | .stopMusic => host.stopMusic
  | .playSound sound => host.playSound sound
  | .picture sprite frame => host.setFrame sprite frame

/-! ### Changes within a scene -/

/-- A change of a session within a scene. -/
inductive Deed where
  | note (notice : Notice)
  /-- An event other than a request for a scene is run. -/
  | record (event : Event) (inFrame : Bool) (depth : Nat)
  /-- A request for a scene is run: it is written down, reported and kept. -/
  | request (request : SceneRequest) (inFrame : Bool) (depth : Nat)
  | register (event : Event)
  | present (change : Presentation)
  | background (background : Background)
  | showBackground
  | blend (blending : Bool)
  | camera (position : Pixel)
  | assign (name : String) (value : Value)
  | showActor (index : Nat) (visible : Bool)
  | turnActor (index : Nat) (direction : Direction)
  | turn (direction : Direction)
  | place (map : TileMap) (position : Pixel)
  | remember (request : SceneRequest)

/-- The session with an event written down in its journal. -/
def Session.recorded (s : Session) (event : Event) (inFrame : Bool) (depth : Nat) : Session :=
  { s with journal := .event ⟨event, inFrame, depth, s.host.frame, s.vars, s.stage⟩ :: s.journal }

/-- The session after a change of the player and its sprite, if there is a player. -/
def Session.withPlayer (s : Session) (change : Player → Host → Player × Host) : Session :=
  { s with
    host :=
      { s.host with
        sprites := s.stage.player.elim s.host.sprites fun player => (change player s.host).2.sprites }
    stage := { s.stage with player := s.stage.player.map fun player => (change player s.host).1 } }

/-- The session after a change of an actor and its sprite, if there is one of that index. -/
def Session.withActor (s : Session) (index : Nat) (change : Actor → Host → Actor × Host) : Session :=
  { s with
    host :=
      { s.host with
        sprites :=
          s.stage.actors[index]?.elim s.host.sprites fun actor => (change actor s.host).2.sprites }
    stage :=
      { s.stage with
        actors :=
          s.stage.actors[index]?.elim s.stage.actors fun actor =>
            s.stage.actors.set index (change actor s.host).1 } }

namespace Deed

/-- The session after a deed. -/
def apply (s : Session) : Deed → Session
  | note notice => { s with notices := s.notices.push notice }
  | record event inFrame depth => s.recorded event inFrame depth
  | request r inFrame depth =>
    let s := s.recorded (.goToScene r.target r.start) inFrame depth
    { s with
      notices := s.notices.push (.sceneRequested r.target)
      stage := { s.stage with request := some r } }
  | register event => { s with stage := { s.stage with handlers := s.stage.handlers ++ [event] } }
  | present change => { s with host := change.apply s.host }
  | background b => { s with stage := { s.stage with background := b } }
  | showBackground => { s with host := s.host.setBackground s.stage.background }
  | blend blending =>
    { s with host := { s.host with sprites := (s.stage.setBlending s.host blending).sprites } }
  | camera position => { s with stage := { s.stage with camera := position } }
  | assign name value => { s with vars := (s.vars.set name value).toOption.getD s.vars }
  | showActor index visible => s.withActor index fun actor host => actor.setVisible host visible
  | turnActor index d => s.withActor index fun actor host => actor.face host d
  | turn d => s.withPlayer fun player host => player.face host d
  | place map position => s.withPlayer fun player host => player.place host map position
  | remember r => { s with pending := some r }

/-- When a deed is done: a request for a scene is run as one, a variable is set only if it was
declared, and the player walks only while no other scene is asked for. -/
def Allowed (s : Session) : Deed → Prop
  | record event _ _ => ∀ target start, event ≠ .goToScene target start
  | assign name _ => s.vars.has name = true
  | place _ _ => s.stage.request = none
  | _ => True

/-- The deeds of events. The others are done by the player under control, and when a scene is
left. -/
def Scripted : Deed → Prop
  | turnActor .. | turn _ | place .. | remember _ => False
  | _ => True

end Deed

/-! ### Changes between scenes -/

/-- The session on the bare stage of a scene, with everything of the last one gone. -/
def Session.entering (game : Game) (s : Session) (name : String) : Session :=
  { s with
    journal := .scene name :: s.journal
    host :=
      { s.host with
        sprites := (s.stage.sprites.foldl Host.destroySprite s.host).sprites
        background := some { s.stage.background with visible := false } }
    stage := .bare (game.graph.scene name) }

/-- A change of a session that brings something onto the stage of a scene. -/
inductive Arrival where
  | player (map : TileMap) (sheet : SpriteSheet) (tile : Tile) (direction : Direction) (z : Int)
  | prop (map : Option TileMap) (definition : PropDef) (tile : Tile) (z : Int)
  | actor (map : Option TileMap) (definition : ActorDef) (tile : Tile) (z : Int)
  /-- The handlers are dropped and the scene is counted. -/
  | ready
  /-- The request of the last scene is used up. -/
  | forget

namespace Arrival

/-- The session after an arrival. -/
def apply (game : Game) (s : Session) : Arrival → Session
  | player map sheet tile d z =>
    let (hero, host) := Player.enter s.host map sheet tile d z
    let camera := (ScrollBounds.ofMap map game.config).following map hero.position
    { s with host := host, stage := { s.stage with player := some hero, camera := camera } }
  | prop map definition tile z =>
    let (sprite, host) := definition.enter s.host map tile z
    { s with host := host, stage := { s.stage with props := s.stage.props ++ [sprite] } }
  | actor map definition tile z =>
    let (newcomer, host) := Actor.enter s.host map definition tile z
    { s with host := host, stage := { s.stage with actors := s.stage.actors ++ [newcomer] } }
  | ready => { s with stage := { s.stage with handlers := [] }, entered := s.entered + 1 }
  | forget => { s with pending := none }

/-- When an arrival takes place: the player comes before anything is run in the scene, and no second
one comes. -/
def Allowed (s : Session) : Arrival → Prop
  | player .. => s.stage.player = none ∧ s.current = []
  | _ => True

/-- The arrivals with which a scene is furnished, when the player is there. -/
def Furnishes : Arrival → Prop
  | prop .. | actor .. | ready => True
  | player .. | forget => False

end Arrival

/-! ### Courses -/

/-- One change of a session while events are run. -/
inductive Beat : Session → Session → Prop
  | deed {s : Session} (d : Deed) (scripted : d.Scripted) (allowed : d.Allowed s) :
    Beat s (d.apply s)
  | frame {s : Session} (goes : s.host.stop? = none) : Beat s { s with host := s.host.afterFrame }

/-- One change of a session within a scene. -/
inductive Stay : Session → Session → Prop
  | deed {s : Session} (d : Deed) (allowed : d.Allowed s) : Stay s (d.apply s)
  | frame {s : Session} (goes : s.host.stop? = none) : Stay s { s with host := s.host.afterFrame }

/-- One change of a session. -/
inductive Move (game : Game) : Session → Session → Prop
  | stay {s t : Session} (h : Stay s t) : Move game s t
  | arrive {s : Session} (a : Arrival) (allowed : a.Allowed s) : Move game s (a.apply game s)
  | enter {s : Session} (name : String) : Move game s (s.entering game name)

/-- The changes that a session undergoes within a scene. -/
abbrev Stretch : Session → Session → Prop := Relation.ReflTransGen Stay

/-- The changes that a session undergoes. -/
abbrev Course (game : Game) : Session → Session → Prop := Relation.ReflTransGen (Move game)

theorem Beat.stay {s t : Session} (h : Beat s t) : Stay s t := by
  cases h with
  | deed d _ allowed => exact .deed d allowed
  | frame goes => exact .frame goes

/-- What every change keeps is kept by every course. -/
theorem Course.keeps {game : Game} {P : Session → Prop} {s t : Session} (h : Course game s t)
    (step : ∀ u v, Move game u v → P u → P v) (hs : P s) : P t := by
  induction h with
  | refl => exact hs
  | tail _ last ih => exact step _ _ last ih

/-- What every change within a scene keeps is kept by every stretch. -/
theorem Stretch.keeps {P : Session → Prop} {s t : Session} (h : Stretch s t)
    (step : ∀ u v, Stay u v → P u → P v) (hs : P s) : P t := by
  induction h with
  | refl => exact hs
  | tail _ last ih => exact step _ _ last ih

end Overworld

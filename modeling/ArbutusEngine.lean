import ArbutusEngine.Lib.Exec
import ArbutusEngine.Lib.Heap
import ArbutusEngine.Lib.Json
import ArbutusEngine.Lib.KeyLog
import ArbutusEngine.Lib.Confined
import ArbutusEngine.Lib.Patch
import ArbutusEngine.Host
import ArbutusEngine.Properties
import ArbutusEngine.Model.State
import ArbutusEngine.Model.Visuals
import ArbutusEngine.Model.VisualInstances
import ArbutusEngine.Model.Scenes
import ArbutusEngine.Model.Layers
import ArbutusEngine.Model.Engine
import ArbutusEngine.Model.Messages
import ArbutusEngine.Model.Commands
import ArbutusEngine.Model.Render
import ArbutusEngine.Model.Actions
import ArbutusEngine.Model.Metronome
import ArbutusEngine.Metronome
import ArbutusEngine.Rounding
import ArbutusEngine.LayerControls
import ArbutusEngine.LayerWrites
import ArbutusEngine.InstanceWrites
import ArbutusEngine.Modes
import ArbutusEngine.Duplicates
import ArbutusEngine.LayersRoundTrip
import ArbutusEngine.VisualsRoundTrip
import ArbutusEngine.Frame
import ArbutusEngine.WellFormed
import ArbutusEngine.Documents
import ArbutusEngine.RoundTrip
import ArbutusEngine.Decoding
import ArbutusEngine.Requests
import ArbutusEngine.Rejections
import ArbutusEngine.Server
import ArbutusEngine.Alignment
import ArbutusEngine.Lifecycle
import ArbutusEngine.Opening
import ArbutusEngine.Paths
import ArbutusEngine.Bounds
import ArbutusEngine.Intact
import ArbutusEngine.References
import ArbutusEngine.Renaming
import ArbutusEngine.Residue
import ArbutusEngine.Writes
import ArbutusEngine.Cells
import ArbutusEngine.Selection
import ArbutusEngine.Cursor
import ArbutusEngine.Settings
import ArbutusEngine.Held
import ArbutusEngine.Snapping
import ArbutusEngine.Dispatch
import ArbutusEngine.Buffers
import ArbutusEngine.Regions
import ArbutusEngine.Isolation
import ArbutusEngine.Marks
import ArbutusEngine.Playing
import ArbutusEngine.SceneDecoder
import ArbutusEngine.InstancesRoundTrip
import ArbutusEngine.SceneReplace
import ArbutusEngine.Erasing
import ArbutusEngine.SceneRemoval
import ArbutusEngine.Cancelling
import ArbutusEngine.LayerUpdates
import ArbutusEngine.SnapSpacing
import ArbutusEngine.Navigation
import ArbutusEngine.LayerRemoval
import ArbutusEngine.LayerNumbers
import ArbutusEngine.PlaybackWindow
import ArbutusEngine.Direction
import ArbutusEngine.Model.Playhead
import ArbutusEngine.Playhead
import ArbutusEngine.Model.Preview
import ArbutusEngine.Preview
import ArbutusEngine.Columns
import ArbutusEngine.Tap
import ArbutusEngine.Acknowledgements
import ArbutusEngine.AddedVisuals
import ArbutusEngine.Starting
import ArbutusEngine.ColumnWalk
import ArbutusEngine.Model.Cleanup
import ArbutusEngine.Model.Controllers
import ArbutusEngine.Model.Devices
import ArbutusEngine.Model.Session
import ArbutusEngine.SessionFrame
import ArbutusEngine.Sessions
import ArbutusEngine.Sweeps
import ArbutusEngine.Safety
import ArbutusEngine.SafeSessions
import ArbutusEngine.SceneWalk
import ArbutusEngine.Settling
import ArbutusEngine.Lib.Built
import ArbutusEngine.Playback
import ArbutusEngine.Layout
import ArbutusEngine.Keys
import ArbutusEngine.LayoutRefinement
import ArbutusEngine.LayoutSessions
import ArbutusEngine.Idle
import ArbutusEngine.Model.App
import ArbutusEngine.Frames

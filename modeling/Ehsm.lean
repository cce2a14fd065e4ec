import Ehsm.Reactive.Machine
import Ehsm.Reactive.Loops
import Ehsm.Reactive.Independence
import Ehsm.Reactive.Schedule
import Ehsm.Reactive.Program
import Ehsm.Types
import Ehsm.Crypto.Algorithm
import Ehsm.Crypto.Overlap
import Ehsm.Crypto.Blocks
import Ehsm.Session.Manager
import Ehsm.Session.Bag
import Ehsm.Session.Uniqueness
import Ehsm.Session.Epoch
import Ehsm.Keystore.Service
import Ehsm.Keystore.Map
import Ehsm.Keystore.History
import Ehsm.Keystore.Records
import Ehsm.Interfaces
import Ehsm.Crypto.Service
import Ehsm.Api.Facade
import Ehsm.Api.Lifecycle
import Ehsm.Api.Startup
import Ehsm.Api.Mediation
import Ehsm.Hsm.Wiring
import Ehsm.Hsm.History
import Ehsm.Hsm.Authorisation
import Ehsm.Hsm.Frame
import Ehsm.Hsm.Noninterference
import Ehsm.Hsm.StaleHandle
import Ehsm.Hsm.Slots
import Ehsm.Hsm.Independence
import Ehsm.Hsm.RoundTrip
import Ehsm.Hsm.Vault
import Ehsm.Hsm.Restart
import Ehsm.Hsm.Catalogue
import Ehsm.Hsm.Clients
import Ehsm.Hsm.Pieces
import Ehsm.Hsm.AnyStrategy
import Ehsm.Hsm.CorrectCipher
import Ehsm.Hsm.Attenuation
import Ehsm.Hsm.Programs
import Ehsm.Hsm.Observation
import Ehsm.Hsm.Demo
import Ehsm.Hsm.Origins
import Ehsm.Hsm.AnyServices

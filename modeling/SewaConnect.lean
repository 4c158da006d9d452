import SewaConnect.Ios.RequestRoundTrip
import SewaConnect.Ios.Fetching
import SewaConnect.Ios.HelpTypeSelection
import SewaConnect.Ios.UserProvider
import SewaConnect.Ios.Prefill
import SewaConnect.Ios.RoleSelection
import SewaConnect.Ios.RequestListeners
import SewaConnect.Ios.MasterViewController
import SewaConnect.Android.Credentials
import SewaConnect.Android.AccountCreation
import SewaConnect.Android.ChatPairing
import SewaConnect.Android.SignOut
import SewaConnect.Android.BackPress
import SewaConnect.Android.ProgressIndicator
import SewaConnect.Android.RequestsAdapter
import SewaConnect.Android.FragmentLookingForHelp
import SewaConnect.Ios.Device
import SewaConnect.Ios.Network
import SewaConnect.Ios.Consistency
import SewaConnect.Rx.Bag
import SewaConnect.Rx.BehaviorSubject
import SewaConnect.Ios.Subscriptions
import SewaConnect.Ios.Deliveries
import SewaConnect.Android.BackStack
import SewaConnect.Android.SignInTasks
import SewaConnect.Android.Profiles
import SewaConnect.Android.FragmentMyRequests
import SewaConnect.Rx.SinkDisposer

import IgtKmod.Basic
import IgtKmod.Unload.Model
import IgtKmod.Unload.Order
import IgtKmod.Unload.Removal
import IgtKmod.Unload.Termination
import IgtKmod.Unload.Complete
import IgtKmod.Unload.Frame
import IgtKmod.Kselftest.Parse
import IgtKmod.Kselftest.Discover
import IgtKmod.Kselftest.Kmsg
import IgtKmod.Kselftest.Run
import IgtKmod.Kselftest.Subtest
import IgtKmod.Kunit.Drain
import IgtKmod.Kunit.Progress
import IgtKmod.Query
import IgtKmod.Context
import IgtKmod.Driver
import IgtKmod.Kunit.Run

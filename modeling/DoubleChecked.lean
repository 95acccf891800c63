import DoubleChecked.CallLaw
import DoubleChecked.Agreement
import DoubleChecked.Poisoning
import DoubleChecked.StaleGate
import DoubleChecked.TokenCustody
import DoubleChecked.LockSharing
import DoubleChecked.LockFirst
import DoubleChecked.Reporting
import DoubleChecked.Resumption
import DoubleChecked.FirstPanic
import DoubleChecked.InertCallbacks
import DoubleChecked.ValueCustody
import DoubleChecked.Realization
import DoubleChecked.Completion
import DoubleChecked.SharedMutex
import DoubleChecked.Truthfulness
import DoubleChecked.FastPath
import DoubleChecked.LifecycleOrder
import DoubleChecked.UnlockedChecks
import DoubleChecked.Recursion
import DoubleChecked.Assertions
